import RustyBacnet.Log.Paging

/-!
# Reading a log to its end

One call of `read_log_page` returns a stretch of the history that starts at the place asked for, or
above it with a gap. The whole read is these stretches one after another.
-/

namespace RustyBacnet.Log

variable {R : Type} [ResidentLogRecord R]

namespace Site.Sound

variable {site : Site R}

/-! ## The counts -/

theorem windowFrom_reads (retries : ℕ) : ∀ {n t m : ℕ} {window : LogWindow}, t < n →
    (retries = 0 → ∃ earlier < t,
      site.readTotalRecordCount earlier ≠ site.readTotalRecordCount t) →
    site.windowFrom logSpace retries (site.readTotalRecordCount t) n = .ok (window, m) →
    ∃ t₀ t₁, t ≤ t₀ ∧ t₀ < t₁ ∧ t₁ + 2 = m ∧
      logSpace.window (site.readRecordCount t₁) (site.readTotalRecordCount t₀) = .ok window ∧
      (site.readTotalRecordCount (m - 1) = site.readTotalRecordCount t₀ ∨
        ∃ earlier < t₀, site.readTotalRecordCount earlier ≠ site.readTotalRecordCount t₀) := by
  induction retries with
  | zero =>
    intro n t m window hlt hmoved hok
    unfold windowFrom at hok
    dsimp only at hok
    cases hwindow : logSpace.window (site.readRecordCount n) (site.readTotalRecordCount t) with
    | error failed =>
      rw [hwindow] at hok
      cases hok
    | ok found =>
      rw [hwindow] at hok
      cases hok
      exact ⟨t, n, le_refl _, hlt, rfl, hwindow, .inr (hmoved rfl)⟩
  | succ retries ih =>
    intro n t m window hlt _ hok
    unfold windowFrom at hok
    dsimp only at hok
    split_ifs at hok with hsame
    · cases hwindow : logSpace.window (site.readRecordCount n) (site.readTotalRecordCount t) with
      | error failed =>
        rw [hwindow] at hok
        cases hok
      | ok found =>
        rw [hwindow] at hok
        cases hok
        exact ⟨t, n, le_refl _, hlt, rfl, hwindow, .inl hsame⟩
    · obtain ⟨t₀, t₁, hle, hlt', hm, hwindow, hmoved⟩ :=
        ih (by omega) (fun _ => ⟨t, by omega, fun h => hsame h.symm⟩) hok
      exact ⟨t₀, t₁, by omega, hlt', hm, hwindow, hmoved⟩

variable {n m : ℕ} {window : LogWindow}

theorem window_lt (hok : site.window logSpace n = .ok (window, m)) : n < m := by
  obtain ⟨t₀, t₁, hn, hlt, hm, _, _⟩ :=
    windowFrom_reads RETRIES (Nat.lt_succ_self n) (fun h => absurd h (by decide)) hok
  omega

/-- The counts tell of an empty log, or of a place not above the oldest there is by then. -/
theorem window_ok (h : site.Sound) (hok : site.window logSpace n = .ok (window, m))
    (hfew : (site.history (m - 1)).length < site.start.records.length + 2147483648) :
    (site.history (m - 1) = [] ∧ ∃ next, window = .empty next) ∨
      ∃ x y, window = .records (numberAt x) (numberAt y) ∧ x ≤ site.low (m - 1) ∧ x ≤ y ∧
        y < x + site.start.capacity ∧ site.top n ≤ y + 1 ∧ y + 1 ≤ site.top (m - 1) ∧
        site.history (m - 1) ≠ [] := by
  obtain ⟨t₀, t₁, hn, hlt, hm, hwindow, hmoved⟩ :=
    windowFrom_reads RETRIES (Nat.lt_succ_self n) (fun h => absurd h (by decide)) hok
  have hlen₀ : (site.history t₀).length ≤ (site.history t₁).length := history_length_le (by omega)
  have hlen₁ : (site.history t₁).length ≤ (site.history (m - 1)).length :=
    history_length_le (by omega)
  obtain ⟨hcount, hlow⟩ := h.buffer_length t₁
  have hnil : ∀ {k}, site.history k = [] ↔ (site.history k).length = 0 := List.length_eq_zero_iff.symm
  -- A total that moved was moved by a record.
  have hkind : (site.history (m - 1)).length = 0 ∨ (site.history t₀).length ≠ 0 := by
    rcases hmoved with hsame | ⟨earlier, hearlier, hdiffers⟩
    · have hequal := h.total_inj (by omega : t₀ ≤ m - 1) hfew hsame.symm
      omega
    · right
      intro hzero
      apply hdiffers
      have hbefore : (site.history earlier).length ≤ (site.history t₀).length :=
        history_length_le (by omega)
      unfold readTotalRecordCount
      rw [h.buffer_total, h.buffer_total, show (site.history earlier).length
        = (site.history t₀).length by omega]
  have hcapacity := h.small
  have hfull := h.top_le_low_add t₁
  unfold SequenceSpace.window at hwindow
  unfold readRecordCount LogRecordBuffer.recordCount at hwindow
  rcases hkind with hempty | hsome
  · left
    have hzero : (site.buffer t₁).records.length = 0 := by
      rw [h.buffer_records, List.length_drop]
      omega
    rw [if_neg, if_pos hzero] at hwindow
    · cases hwindow
      exact ⟨hnil.mpr hempty, _, rfl⟩
    · intro hlarge
      rw [if_pos hlarge] at hwindow
      cases hwindow
  · right
    have hne₀ : site.history t₀ ≠ [] := fun hnone => hsome (hnil.mp hnone)
    have hne₁ : site.history t₁ ≠ [] := fun hnone => hsome (by have := hnil.mp hnone; omega)
    have hthere := h.low_lt_top hne₁
    have htop := h.top_eq t₀
    have htop₀ : site.top t₀ ≤ site.top t₁ := top_mono (by omega)
    have htopn : site.top n ≤ site.top t₀ := top_mono (by omega)
    have htopm : site.top t₁ ≤ site.top (m - 1) := top_mono (by omega)
    have hlowm := h.low_mono (by omega : t₁ ≤ m - 1)
    rw [if_neg, if_neg (by omega)] at hwindow
    · cases hwindow
      refine ⟨site.top t₀ - (site.top t₁ - site.low t₁), site.top t₀ - 1, ?_, ?_, ?_, ?_, ?_, ?_, ?_⟩
      · unfold readTotalRecordCount
        rw [h.total_eq hne₀, retreat_numberAt]
        · congr 2
          omega
        · unfold sequenceCycle at htop
          omega
        · unfold sequenceCycle
          omega
      · omega
      · omega
      · omega
      · omega
      · omega
      · intro hnone
        have := hnil.mp hnone
        omega
    · intro hlarge
      rw [if_pos hlarge] at hwindow
      cases hwindow

/-! ## One answer -/

/-- What a nonempty answer carries: `length` records from `place` on. -/
structure Carries (site : Site R) (n place length : ℕ) (ack : ReadRangeAck R) : Prop where
  positive : 1 ≤ length
  there : site.low n ≤ place
  within : place + length ≤ site.top n
  itemCount : ack.itemCount = length
  records : ack.records = ((site.history n).drop (place - site.base)).take length
  first : ack.firstSequenceNumber = some (numberAt place)
  last : ack.resultFlags.lastItem = decide (place + length = site.top n)

variable {place : ℕ} {count : ℤ} {reply : ReadRangeReply R}

/-- A place below the top is answered for while it is there, else with nothing. -/
theorem readRange_ok (h : site.Sound) (hlt : place < site.top n)
    (hcycle : site.top n ≤ place + sequenceCycle) (hcount : 0 < count)
    (hok : site.readRangeLenient (request (.sequence (numberAt place)) count) n = .ok reply) :
    (reply.ack.itemCount = 0 ∧ place < site.low n) ∨
      ∃ length, Carries site n place length reply.ack := by
  unfold readRangeLenient at hok
  split at hok
  · cases hok
  rename_i ack hserved
  cases hok
  have hanswer := serveReadRange_sequence (h.buffer_keeps n).1 hcount hserved
  rw [h.recordPosition_eq hlt hcycle] at hanswer
  obtain ⟨hlength, hle⟩ := h.buffer_length n
  by_cases hthere : site.low n ≤ place
  · rw [if_pos hthere] at hanswer
    obtain ⟨length, hpositive, hwithin, hitems, hrecords, hfirst, hlast⟩ := hanswer
    right
    refine ⟨length, hpositive, hthere, by omega, hitems, ?_, hfirst, ?_⟩
    · rw [hrecords, h.buffer_records, List.drop_drop]
      congr 2
      unfold low at hthere ⊢
      omega
    · rw [hlast, hlength]
      congr 1
      apply propext
      constructor
      · intro hends
        omega
      · intro hends
        omega
  · rw [if_neg hthere] at hanswer
    left
    exact ⟨hanswer, by omega⟩

/-! ## One page -/

/-- What a call returns: `length` records from `place` on, and a gap if it asked for another. -/
structure Turns (site : Site R) (expected n place length : ℕ) (page : LogPage R) : Prop where
  positive : 1 ≤ length
  above : expected ≤ place
  within : place + length ≤ site.top n
  held : site.base ≤ place
  records : page.records = ((site.history n).drop (place - site.base)).take length
  next : page.next = .sequence (numberAt (place + length))
  done : page.done = decide (place + length = site.top n)
  gap : expected < place → place ≤ site.low n ∧
    ∃ skipped, page.gap = some ⟨numberAt expected, numberAt place, skipped⟩

variable {made : LogPage R} {expected length : ℕ}

theorem page_ok (hcarries : Carries site n place length reply.ack) (habove : expected ≤ place)
    (hcycle : place < expected + sequenceCycle) (hleft : expected < place → place ≤ site.low n)
    (hok : page logSpace (.sequence (numberAt place)) reply
      (if numberAt place ≠ numberAt expected then some (numberAt expected) else none) = .ok made) :
    Turns site expected n place length made := by
  unfold page at hok
  split at hok
  · cases hok
  rw [hcarries.first] at hok
  dsimp only at hok
  have hself := (distance_eq_zero_iff (le_refl place) (by unfold sequenceCycle; omega)).mpr rfl
  rw [hself, if_neg (lt_irrefl _)] at hok
  have hexpected : (if numberAt place ≠ numberAt expected then some (numberAt expected)
      else none).getD (numberAt place) = numberAt expected := by
    by_cases hsame : numberAt place = numberAt expected
    · rw [if_neg (not_not.mpr hsame), Option.getD_none, hsame]
    · rw [if_pos hsame, Option.getD_some]
  rw [hexpected, hcarries.itemCount, advance_numberAt, Except.ok.injEq] at hok
  have hpositive := hcarries.positive
  have hlow : site.base ≤ site.low n := Nat.le_add_right _ _
  rw [← hok]
  refine ⟨hpositive, habove, hcarries.within, le_trans hlow hcarries.there, hcarries.records, rfl,
    ?_, ?_⟩
  · rw [hcarries.last]
    have hnone : (length == 0) = false := beq_eq_false_iff_ne.mpr (by omega)
    rw [hnone, Bool.false_or]
  · intro hlt
    have hskipped := mt (distance_eq_zero_iff habove hcycle).mp (by omega)
    rw [if_neg hskipped]
    exact ⟨hleft hlt, _, rfl⟩

theorem map_ok {α β : Type} {result : Except ReadError α} {f : α → β} {b : β}
    (h : result.map f = .ok b) : ∃ a, result = .ok a ∧ f a = b := by
  cases result with
  | error failed => cases h
  | ok a => exact ⟨a, rfl, Except.ok.inj h⟩

variable {final : ℕ}

/-- What one turn of the loop does: end with a page, or ask again after the counts. -/
theorem pageFrom_cases {space : SequenceSpace} {left asked : ℕ} {askedWhileHeld : Bool}
    (hok : site.pageFrom space count expected left asked askedWhileHeld reply n = .ok (made, final))
    :
    (reply.ack.itemCount ≠ 0 ∧ final = n ∧ page space (.sequence asked) reply
      (if asked ≠ expected then some expected else none) = .ok made) ∨
    (reply.ack.itemCount = 0 ∧ ∃ window m, site.window space n = .ok (window, m) ∧
      ((final = m ∧ ((∃ next, window = .empty next) ∨ ∃ oldest newest,
          window = .records oldest newest ∧ space.distance asked (space.advance newest 1) = 0)) ∨
        ∃ left' oldest newest asked' reply', left = left' + 1 ∧ window = .records oldest newest ∧
          (asked' = asked ∨ asked' = oldest ∧
            ¬(0 ≤ space.distance oldest asked ∧ 0 ≤ space.distance asked newest)) ∧
          site.readRangeLenient (request (.sequence asked') count) m = .ok reply' ∧
          site.pageFrom space count expected left' asked' true reply' (m + 1)
            = .ok (made, final))) := by
  unfold pageFrom at hok
  split at hok
  · rename_i hitems
    obtain ⟨found, hpage, hsame⟩ := map_ok hok
    cases hsame
    exact .inl ⟨hitems, rfl, hpage⟩
  rename_i hitems
  right
  refine ⟨not_not.mp hitems, ?_⟩
  split at hok
  · cases hok
  split at hok
  · cases hok
  rename_i left'
  split at hok
  · cases hok
  · rename_i next m hwindow
    obtain ⟨found, _, hsame⟩ := map_ok hok
    cases hsame
    exact ⟨_, _, hwindow, .inl ⟨rfl, .inl ⟨next, rfl⟩⟩⟩
  · rename_i oldest newest m hwindow
    refine ⟨_, _, hwindow, ?_⟩
    split at hok
    · dsimp only at hok
      split at hok
      · cases hok
      split at hok
      · cases hok
      rename_i reply' hreply
      right
      refine ⟨left', oldest, newest, _, reply', rfl, rfl, ?_, hreply, hok⟩
      split_ifs with hheld
      · exact .inl rfl
      · refine .inr ⟨rfl, ?_⟩
        rw [Bool.and_eq_true, decide_eq_true_iff, decide_eq_true_iff] at hheld
        exact hheld
    · rename_i hnext
      obtain ⟨found, _, hsame⟩ := map_ok hok
      cases hsame
      exact .inl ⟨rfl, .inr ⟨oldest, newest, rfl, not_not.mp hnext⟩⟩

theorem pageFrom_le (left : ℕ) :
    ∀ {asked n : ℕ} {askedWhileHeld : Bool} {reply : ReadRangeReply R},
      site.pageFrom logSpace count expected left asked askedWhileHeld reply n = .ok (made, final) →
      n ≤ final := by
  induction left using Nat.strong_induction_on with
  | _ left ih =>
    intro asked n askedWhileHeld reply hok
    rcases pageFrom_cases hok with
      ⟨_, rfl, _⟩ | ⟨_, window, m, hwindow, ⟨rfl, _⟩ | ⟨left', _, _, _, _, hleft, _, _, _, hrest⟩⟩
    · exact le_refl _
    · exact le_of_lt (window_lt hwindow)
    · have hlt := window_lt hwindow
      have hle := ih left' (by omega) hrest
      omega

/-- Fewer than half a cycle logged: the top stays less than a cycle above what is asked for. -/
theorem top_lt_cycle (h : site.Sound) (hfloor : site.top 0 ≤ expected + site.start.capacity)
    (hfew : (site.history m).length < site.start.records.length + 2147483648) :
    site.top m < expected + sequenceCycle := by
  have hsmall := h.small
  have htop := h.top_eq m
  have hzero := h.top_eq 0
  unfold sequenceCycle at htop hzero ⊢
  omega

/-- The loop of one call, from an answer to request `n` for the number of `place`. -/
theorem pageFrom_ok (h : site.Sound) (hcount : 0 < count)
    (hfloor : site.top 0 ≤ expected + site.start.capacity)
    (hfew : (site.history (final - 1)).length < site.start.records.length + 2147483648) (left : ℕ) :
    ∀ {place n : ℕ} {askedWhileHeld : Bool} {reply : ReadRangeReply R},
      expected ≤ place → place < site.top n → site.history n ≠ [] →
      (expected < place → place ≤ site.low n) →
      site.readRangeLenient (request (.sequence (numberAt place)) count) n = .ok reply →
      site.pageFrom logSpace count (numberAt expected) left (numberAt place) askedWhileHeld reply
        (n + 1) = .ok (made, final) →
      ∃ place length, Turns site expected (final - 1) place length made := by
  have hcycle := h.top_lt_cycle hfloor hfew
  have hsmall := h.small
  induction left using Nat.strong_induction_on with
  | _ left ih =>
    intro place n askedWhileHeld reply habove hlt hne hleft hreply hok
    have hn := pageFrom_le _ hok
    have htopn : site.top n ≤ site.top (final - 1) := top_mono (by omega)
    rcases h.readRange_ok hlt (by omega) hcount hreply with ⟨hnone, hgone⟩ | ⟨length, hcarries⟩
    · rcases pageFrom_cases hok with ⟨hitems, _⟩ | ⟨_, window, m, hwindow, hrest⟩
      · exact absurd hnone hitems
      have hm := window_lt hwindow
      have hmfinal : m ≤ final := by
        rcases hrest with ⟨rfl, _⟩ | ⟨_, _, _, _, _, _, _, _, _, hagain⟩
        · exact le_refl _
        · have := pageFrom_le _ hagain
          omega
      have hfewm : (site.history (m - 1)).length < site.start.records.length + 2147483648 :=
        lt_of_le_of_lt (history_length_le (by omega)) hfew
      have hlength : (site.history n).length ≤ (site.history (m - 1)).length :=
        history_length_le (by omega)
      have hpositive := List.length_pos_iff.mpr hne
      rcases h.window_ok hwindow hfewm with
        ⟨hempty, _⟩ | ⟨x, y, rfl, hx, hxy, hcapacity, htop, hy, hnem⟩
      · rw [hempty, List.length_nil] at hlength
        omega
      have htopn' : site.top n ≤ site.top (n + 1) := top_mono (by omega)
      have htopm : site.top (m - 1) ≤ site.top (final - 1) := top_mono (by omega)
      rcases hrest with ⟨_, hempty | ⟨oldest, newest, hrecords, hend⟩⟩ |
        ⟨left', oldest, newest, asked', reply', hleft', hrecords, hasked, hreply', hagain⟩
      · obtain ⟨next, hempty⟩ := hempty
        cases hempty
      · cases hrecords
        rw [advance_numberAt, distance_eq_zero_iff (by omega) (by omega)] at hend
        omega
      · cases hrecords
        have hlowm : site.low n ≤ site.low m := h.low_mono (by omega)
        have hlowm' : site.low (m - 1) ≤ site.low m := h.low_mono (by omega)
        have htopm' : site.top (m - 1) ≤ site.top m := top_mono (by omega)
        have hnem' : site.history m ≠ [] := by
          have hmore : (site.history (m - 1)).length ≤ (site.history m).length :=
            history_length_le (by omega)
          have hsome := List.length_pos_iff.mpr hnem
          exact List.length_pos_iff.mp (by omega)
        rcases hasked with rfl | ⟨rfl, hunheld⟩
        · exact ih left' (by omega) habove (by omega) hnem'
            (fun hmore => le_trans (hleft hmore) hlowm) hreply' hagain
        · have hhigher : place < x := by
            by_contra hle
            apply hunheld
            have hlow : site.low n ≤ site.top n := (h.buffer_length n).2
            constructor
            · exact distance_nonneg (by omega) (by unfold sequenceCycle; omega)
            · exact distance_nonneg (by omega) (by unfold sequenceCycle; omega)
          exact ih left' (by omega) (by omega) (by omega) hnem' (fun _ => by omega) hreply' hagain
    · rcases pageFrom_cases hok with ⟨_, rfl, hpage⟩ | ⟨hnone, _⟩
      · exact ⟨place, length, page_ok hcarries habove (by omega) hleft hpage⟩
      · have hitems := hcarries.itemCount
        have hpositive := hcarries.positive
        omega

/-! ## One call -/

variable {cursor : LogCursor}

theorem readFrom_lt (hok : site.readFrom logSpace count cursor n = .ok (made, final)) :
    n < final := by
  unfold readFrom at hok
  split at hok
  · cases hok
  split at hok
  · exact pageFrom_le _ hok
  · obtain ⟨found, _, hsame⟩ := map_ok hok
    cases hsame
    exact Nat.lt_succ_self n

variable {pageSize : ℕ}

theorem pageCount_pos (hok : pageCount pageSize = .ok count) : 0 < count := by
  unfold pageCount at hok
  split_ifs at hok with hrange
  cases hok
  omega

variable {objectType : ℕ}

/-- A call at a cursor other than `oldest` reads from it. -/
theorem readLogPage_from (hlog : SequenceSpace.of objectType = .ok logSpace)
    (hcursor : cursor ≠ .oldest)
    (hok : site.readLogPage objectType cursor pageSize n = .ok (made, final)) :
    ∃ count, 0 < count ∧ site.readFrom logSpace count cursor n = .ok (made, final) := by
  unfold readLogPage at hok
  rw [hlog] at hok
  dsimp only at hok
  split at hok
  · cases hok
  rename_i count hcount
  refine ⟨count, pageCount_pos hcount, ?_⟩
  split at hok
  · exact absurd rfl hcursor
  · exact hok

/-- A call at `oldest` finds the log empty, or reads from the oldest number. -/
theorem readLogPage_oldest (hlog : SequenceSpace.of objectType = .ok logSpace)
    (hok : site.readLogPage objectType .oldest pageSize n = .ok (made, final)) :
    (∃ next, site.window logSpace n = .ok (.empty next, final) ∧
      made = emptyPage (.sequence next)) ∨
    ∃ oldest newest m, site.window logSpace n = .ok (.records oldest newest, m) ∧
      site.readLogPage objectType (.sequence oldest) pageSize m = .ok (made, final) := by
  unfold readLogPage at hok ⊢
  rw [hlog] at hok ⊢
  dsimp only at hok ⊢
  split at hok
  · cases hok
  rename_i count hcount
  split at hok
  · cases hok
  · rename_i next m hwindow
    cases hok
    exact .inl ⟨next, hwindow, rfl⟩
  · rename_i oldest newest m hwindow
    exact .inr ⟨oldest, newest, m, hwindow, hok⟩

theorem readLogPage_lt (hlog : SequenceSpace.of objectType = .ok logSpace)
    (hok : site.readLogPage objectType cursor pageSize n = .ok (made, final)) : n < final := by
  by_cases hcursor : cursor = .oldest
  · subst hcursor
    rcases readLogPage_oldest hlog hok with ⟨_, hwindow, _⟩ | ⟨oldest, _, m, hwindow, hnumber⟩
    · exact window_lt hwindow
    · obtain ⟨count, _, hread⟩ := readLogPage_from hlog (by simp) hnumber
      exact lt_trans (window_lt hwindow) (readFrom_lt hread)
  · obtain ⟨count, _, hread⟩ := readLogPage_from hlog hcursor hok
    exact readFrom_lt hread

theorem readFrom_ok (h : site.Sound) (hcount : 0 < count)
    (hfloor : site.top 0 ≤ expected + site.start.capacity) (hlt : expected < site.top n)
    (hne : site.history n ≠ [])
    (hfew : (site.history (final - 1)).length < site.start.records.length + 2147483648)
    (hok : site.readFrom logSpace count (.sequence (numberAt expected)) n = .ok (made, final)) :
    ∃ place length, Turns site expected (final - 1) place length made := by
  unfold readFrom at hok
  split at hok
  · cases hok
  rename_i reply hreply
  exact h.pageFrom_ok hcount hfloor hfew RETRIES (le_refl _) hlt hne
    (fun hmore => absurd hmore (lt_irrefl _)) hreply hok

/-! ## The whole read -/

/-- A page told of a gap over the place, which was no longer there. -/
def Reported (site : Site R) (visits : List (Visit R)) (place : ℕ) : Prop :=
  ∃ visit ∈ visits, ∃ gap, visit.page.gap = some gap ∧ gap.Covers (numberAt place) ∧
    place < site.low (visit.requests - 1)

/-- What the pages of a read from `expected` on hold, `n` the last request. -/
structure Covered (site : Site R) (expected n : ℕ) (visits : List (Visit R)) (places : List ℕ) :
    Prop where
  increasing : places.Pairwise (· < ·)
  above : ∀ place ∈ places, expected ≤ place ∧ site.base ≤ place
  records : (visits.flatMap (·.page.records)).map some
    = places.map fun place => (site.history n)[place - site.base]?
  newest : places.getLast? = some (site.top n - 1)
  ends : ∀ final, visits.getLast? = some final → final.page.records ≠ []
  complete : ∀ place, expected ≤ place → place < site.top n →
    place ∈ places ∨ Reported site visits place

omit [ResidentLogRecord R] in
theorem slice_eq (hle : n ≤ m) (hbase : site.base ≤ place) (hwithin : place + length ≤ site.top n) :
    (((site.history n).drop (place - site.base)).take length).map some
      = (List.range' place length).map fun place => (site.history m)[place - site.base]? := by
  apply List.ext_getElem?
  intro i
  have hbefore : site.history n <+: site.history m := history_prefix_of hle
  obtain ⟨later, hlater⟩ := hbefore
  unfold top at hwithin
  by_cases hi : i < length
  · rw [List.getElem?_map, List.getElem?_take, if_pos hi, List.getElem?_drop, List.getElem?_map,
      List.getElem?_range' hi, ← hlater, Option.map_some, Nat.one_mul]
    rw [show place + i - site.base = place - site.base + i by omega]
    rw [List.getElem?_append_left (by omega), List.getElem?_eq_getElem (by omega)]
    rfl
  · rw [List.getElem?_eq_none, List.getElem?_eq_none]
    · rw [List.length_map, List.length_range']
      omega
    · rw [List.length_map, List.length_take]
      omega

theorem Turns.reported (h : Turns site expected n place length made)
    (hcycle : site.top n < expected + sequenceCycle) {other : ℕ} (habove : expected ≤ other)
    (hbelow : other < place) :
    ∃ gap, made.gap = some gap ∧ gap.Covers (numberAt other) ∧ other < site.low n := by
  obtain ⟨hlow, skipped, hgap⟩ := h.gap (by omega)
  have hwithin := h.within
  have hpositive := h.positive
  refine ⟨_, hgap, ?_, by omega⟩
  unfold LogGap.Covers
  rw [sequenceDistance_numberAt habove (by omega), sequenceDistance_numberAt h.above (by omega)]
  omega

theorem records_ne_nil (h : Turns site expected n place length made) : made.records ≠ [] := by
  have hwithin := h.within
  have hpositive := h.positive
  have hheld := h.held
  unfold top at hwithin
  rw [h.records]
  apply List.ne_nil_of_length_pos
  rw [List.length_take, List.length_drop]
  omega

theorem covered_last (h : Turns site expected n place length made)
    (hcycle : site.top n < expected + sequenceCycle) (hdone : made.done = true) :
    Covered site expected n [⟨made, n + 1⟩] (List.range' place length) := by
  have habove := h.above
  have hheld := h.held
  have hpositive := h.positive
  rw [h.done, decide_eq_true_iff] at hdone
  refine ⟨?_, ?_, ?_, ?_, ?_, ?_⟩
  · exact List.pairwise_lt_range' _
  · intro other hother
    rw [List.mem_range'_1] at hother
    omega
  · show (made.records ++ []).map some = _
    rw [List.append_nil, h.records]
    exact slice_eq (le_refl n) h.held h.within
  · rw [List.getLast?_range', if_neg (by omega), Option.some.injEq]
    omega
  · intro final hfinal
    cases hfinal
    exact records_ne_nil h
  · intro other hother hlt
    by_cases hbelow : other < place
    · obtain ⟨gap, hgap, hcovers, hgone⟩ := h.reported hcycle hother hbelow
      exact .inr ⟨_, List.mem_singleton_self _, gap, hgap, hcovers, hgone⟩
    · left
      rw [List.mem_range'_1]
      omega

variable {visits : List (Visit R)}

theorem covered_more {k : ℕ} {places : List ℕ} (h : Turns site expected k place length made)
    (hle : k ≤ n) (hcycle : site.top n < expected + sequenceCycle) (hvisits : visits ≠ [])
    (hrest : Covered site (place + length) n visits places) :
    Covered site expected n (⟨made, k + 1⟩ :: visits) (List.range' place length ++ places) := by
  have habove := h.above
  have hheld := h.held
  have htop : site.top k ≤ site.top n := top_mono hle
  refine ⟨?_, ?_, ?_, ?_, ?_, ?_⟩
  · rw [List.pairwise_append]
    refine ⟨List.pairwise_lt_range' _, hrest.increasing, ?_⟩
    intro other hother later hlater
    rw [List.mem_range'_1] at hother
    exact lt_of_lt_of_le hother.2 (hrest.above later hlater).1
  · intro other hother
    rcases List.mem_append.mp hother with hother | hother
    · rw [List.mem_range'_1] at hother
      omega
    · have := hrest.above other hother
      omega
  · rw [List.flatMap_cons, List.map_append, List.map_append, hrest.records]
    congr 1
    rw [h.records]
    exact slice_eq hle h.held h.within
  · rw [List.getLast?_append, hrest.newest]
    rfl
  · intro final hfinal
    rw [List.getLast?_cons_of_ne_nil hvisits] at hfinal
    exact hrest.ends final hfinal
  · intro other hother hlt
    by_cases hbelow : other < place
    · obtain ⟨gap, hgap, hcovers, hgone⟩ := h.reported (by omega) hother hbelow
      exact .inr ⟨_, List.mem_cons_self, gap, hgap, hcovers, hgone⟩
    · by_cases hhere : other < place + length
      · exact .inl (List.mem_append.mpr (.inl (List.mem_range'_1.mpr (by omega))))
      · rcases hrest.complete other (by omega) hlt with hmem | ⟨visit, hvisit, hreported⟩
        · exact .inl (List.mem_append.mpr (.inr hmem))
        · exact .inr ⟨visit, List.mem_cons_of_mem _ hvisit, hreported⟩

theorem reads_ne_nil (hreads : site.Reads objectType pageSize cursor n visits) : visits ≠ [] := by
  cases hreads with
  | last _ _ => exact List.cons_ne_nil _ _
  | more _ _ _ => exact List.cons_ne_nil _ _

theorem reads_lt (hlog : SequenceSpace.of objectType = .ok logSpace)
    (hreads : site.Reads objectType pageSize cursor n visits) :
    ∀ {final : Visit R}, visits.getLast? = some final → n < final.requests := by
  induction hreads with
  | last hpage _ =>
    intro final hfinal
    cases hfinal
    exact readLogPage_lt hlog hpage
  | more hpage _ hrest ih =>
    intro final hfinal
    have hlt := readLogPage_lt hlog hpage
    rw [List.getLast?_cons_of_ne_nil (reads_ne_nil hrest)] at hfinal
    exact lt_trans hlt (ih hfinal)

/-- From a place below the top on, a read covers everything up to the newest. -/
theorem reads_sequence (h : site.Sound) (hlog : SequenceSpace.of objectType = .ok logSpace)
    (hreads : site.Reads objectType pageSize cursor n visits) {final : Visit R}
    (hfinal : visits.getLast? = some final)
    (hfew : (site.history (final.requests - 1)).length < site.start.records.length + 2147483648) :
    ∀ {expected : ℕ}, cursor = .sequence (numberAt expected) →
      site.top 0 ≤ expected + site.start.capacity → expected < site.top n → site.history n ≠ [] →
      ∃ places, Covered site expected (final.requests - 1) visits places := by
  induction hreads with
  | @last cursor n m made hpage hdone =>
    intro expected hcursor hfloor hlt hne
    rw [List.getLast?_singleton, Option.some.injEq] at hfinal
    subst hfinal hcursor
    obtain ⟨count, hcount, hread⟩ := readLogPage_from hlog (by simp) hpage
    obtain ⟨place, length, hturns⟩ := h.readFrom_ok hcount hfloor hlt hne hfew hread
    have hm : n < m := readFrom_lt hread
    have hcovered := covered_last hturns (h.top_lt_cycle hfloor hfew) hdone
    rw [show m - 1 + 1 = m by omega] at hcovered
    exact ⟨_, hcovered⟩
  | @more cursor n m made visits hpage hdone hrest ih =>
    intro expected hcursor hfloor hlt hne
    subst hcursor
    have hvisits := reads_ne_nil hrest
    rw [List.getLast?_cons_of_ne_nil hvisits] at hfinal
    have hlater := reads_lt hlog hrest hfinal
    have hfewm : (site.history (m - 1)).length < site.start.records.length + 2147483648 :=
      lt_of_le_of_lt (history_length_le (by omega)) hfew
    obtain ⟨count, hcount, hread⟩ := readLogPage_from hlog (by simp) hpage
    obtain ⟨place, length, hturns⟩ := h.readFrom_ok hcount hfloor hlt hne hfewm hread
    have hm := readFrom_lt hread
    have habove := hturns.above
    have hwithin := hturns.within
    have htop : site.top (m - 1) ≤ site.top m := top_mono (by omega)
    have hlength : (site.history n).length ≤ (site.history m).length := history_length_le (by omega)
    have hsome := List.length_pos_iff.mpr hne
    rw [hturns.done, decide_eq_false_iff_not] at hdone
    obtain ⟨places, hplaces⟩ := ih hfinal hturns.next (by omega) (by omega)
      (List.length_pos_iff.mp (by omega))
    have hcovered := covered_more hturns (by omega) (h.top_lt_cycle hfloor hfew) hvisits hplaces
    rw [Nat.sub_add_cancel (by omega)] at hcovered
    exact ⟨_, hcovered⟩

theorem reads_window (hlog : SequenceSpace.of objectType = .ok logSpace)
    (hreads : site.Reads objectType pageSize .oldest n visits) :
    ∃ counts m, site.window logSpace n = .ok (counts, m) := by
  have hwindow : ∀ {made : LogPage R} {m : ℕ},
      site.readLogPage objectType .oldest pageSize n = .ok (made, m) →
        ∃ counts m, site.window logSpace n = .ok (counts, m) := by
    intro made m hpage
    rcases readLogPage_oldest hlog hpage with ⟨_, hwindow, _⟩ | ⟨_, _, _, hwindow, _⟩
    · exact ⟨_, _, hwindow⟩
    · exact ⟨_, _, hwindow⟩
  cases hreads with
  | last hpage _ => exact hwindow hpage
  | more hpage _ _ => exact hwindow hpage

/-- A read from the oldest record finds nothing, or goes on by number after the counts. -/
theorem reads_oldest (hlog : SequenceSpace.of objectType = .ok logSpace)
    (hreads : site.Reads objectType pageSize .oldest n visits) {counts : LogWindow}
    (hcounts : site.window logSpace n = .ok (counts, m)) :
    (∃ next, counts = .empty next ∧ visits = [⟨emptyPage (.sequence next), m⟩]) ∨
      ∃ oldest newest, counts = .records oldest newest ∧
        site.Reads objectType pageSize (.sequence oldest) m visits := by
  cases hreads with
  | last hpage hdone =>
    rcases readLogPage_oldest hlog hpage with
      ⟨next, hwindow, rfl⟩ | ⟨oldest, newest, m', hwindow, hnumber⟩
    · rw [hcounts] at hwindow
      cases hwindow
      exact .inl ⟨next, rfl, rfl⟩
    · rw [hcounts] at hwindow
      cases hwindow
      exact .inr ⟨oldest, newest, rfl, .last hnumber hdone⟩
  | more hpage hdone hrest =>
    rcases readLogPage_oldest hlog hpage with
      ⟨next, hwindow, rfl⟩ | ⟨oldest, newest, m', hwindow, hnumber⟩
    · exact absurd hdone Bool.noConfusion
    · rw [hcounts] at hwindow
      cases hwindow
      exact .inr ⟨oldest, newest, rfl, .more hnumber hdone hrest⟩

end Site.Sound

namespace Site

theorem sound_performAll {site : Site R} {capacity : UInt32} {ops : List (Op R)}
    (hstart : site.start = (LogRecordBuffer.new capacity).performAll ops)
    (hpositive : 1 ≤ capacity.toNat) (hsmall : capacity.toNat ≤ 2147483647) : site.Sound := by
  have hkeeps := LogRecordBuffer.keeps_performAll ops (LogRecordBuffer.keeps_new (R := R) capacity)
  have hcapacity := LogRecordBuffer.capacity_performAll ops (LogRecordBuffer.new (R := R) capacity)
  rw [← hstart] at hkeeps hcapacity
  have hcapacity : site.start.capacity = capacity.toNat := hcapacity
  refine ⟨⟨⟨hkeeps.unkeyed, hkeeps.descents⟩, hkeeps.capacity, hkeeps.total, hkeeps.numbered, ?_⟩,
    by omega, by omega⟩
  have hlength := hkeeps.length_le
  rw [Nat.sub_eq_zero_of_le hlength, List.drop_zero]

/-- **A paged read neither repeats nor silently loses a record.** From the oldest record on until a
page is done, with fewer than `2^31` records logged meanwhile: the records returned are places of the
history in order, the last of them the newest there when it was read, and every place not older than
the oldest record there when the first page's counts had been read, and there then or below the last
one returned, is returned, or is covered by a gap of a page that was read when it was gone. -/
theorem paged_read_loses_nothing_silently (site : Site R) (capacity : UInt32) (ops : List (Op R))
    (hstart : site.start = (LogRecordBuffer.new capacity).performAll ops)
    (hpositive : 1 ≤ capacity.toNat) (hsmall : capacity.toNat ≤ 2147483647) (objectType : ℕ)
    (hlog : objectType = ObjectType.trendLog ∨ objectType = ObjectType.eventLog ∨
      objectType = ObjectType.trendLogMultiple) (pageSize : ℕ) (visits : List (Visit R))
    (hreads : site.Reads objectType pageSize .oldest 0 visits) (final : Visit R)
    (hfinal : visits.getLast? = some final)
    (hfew : (site.history (final.requests - 1)).length
      < site.start.records.length + 2147483648) :
    ∃ places : List ℕ, places.Pairwise (· < ·) ∧
      (visits.flatMap (·.page.records)).map some
        = places.map (fun place => (site.history (final.requests - 1))[place]?) ∧
      (∀ place ∈ places.getLast?, place + 1 = (site.history (final.requests - 1)).length ∧
        final.page.records ≠ []) ∧
      ∀ counts m, site.window logSpace 0 = .ok (counts, m) →
        ∀ place, site.oldest (m - 1) ≤ place →
          (place < (site.history (m - 1)).length ∨ ∃ last ∈ places.getLast?, place < last) →
          place ∈ places ∨ ∃ visit ∈ visits, ∃ gap, visit.page.gap = some gap ∧
            gap.Covers (site.number place) ∧ place < site.oldest (visit.requests - 1) := by
  have h := sound_performAll hstart hpositive hsmall
  have hspace : SequenceSpace.of objectType = .ok logSpace := by
    rcases hlog with rfl | rfl | rfl
    · rfl
    · rfl
    · rfl
  obtain ⟨counts, m, hcounts⟩ := Sound.reads_window hspace hreads
  rcases Sound.reads_oldest hspace hreads hcounts with
    ⟨next, rfl, rfl⟩ | ⟨oldest, newest, rfl, hnumber⟩
  · -- Nothing was there when the counts were read.
    rw [List.getLast?_singleton, Option.some.injEq] at hfinal
    subst hfinal
    refine ⟨[], List.Pairwise.nil, rfl, fun _ h => absurd h (by simp), ?_⟩
    intro counts' m' hcounts' place habove hplace
    rw [hcounts] at hcounts'
    cases hcounts'
    exfalso
    rcases h.window_ok hcounts hfew with ⟨hempty, _⟩ | ⟨x, y, hrecords, _⟩
    · rw [hempty, List.length_nil] at hplace
      rcases hplace with hplace | ⟨last, hlast, _⟩
      · exact Nat.not_lt_zero _ hplace
      · exact absurd hlast (by simp)
    · cases hrecords
  · have hm := Sound.reads_lt hspace hnumber hfinal
    have hfewm : (site.history (m - 1)).length < site.start.records.length + 2147483648 :=
      lt_of_le_of_lt (history_length_le (by omega)) hfew
    rcases h.window_ok hcounts hfewm with
      ⟨_, next, hempty⟩ | ⟨x, y, hrecords, hx, hxy, hcapacity, htop, hy, hne⟩
    · cases hempty
    cases hrecords
    have htopm : site.top (m - 1) ≤ site.top m := Sound.top_mono (by omega)
    have hlength : (site.history (m - 1)).length ≤ (site.history m).length :=
      history_length_le (by omega)
    have hlengthf : (site.history (m - 1)).length ≤ (site.history (final.requests - 1)).length :=
      history_length_le (by omega)
    have hsome := List.length_pos_iff.mpr hne
    obtain ⟨places, hplaces⟩ := h.reads_sequence hspace hnumber hfinal hfew rfl (by omega)
      (by omega) (List.length_pos_iff.mp (by omega))
    have hlast : (places.map (· - site.base)).getLast?
        = some ((site.history (final.requests - 1)).length - 1) := by
      rw [List.getLast?_map, hplaces.newest]
      show some (site.top (final.requests - 1) - 1 - site.base) = _
      unfold top
      congr 1
      omega
    refine ⟨places.map (· - site.base), ?_, ?_, ?_, ?_⟩
    · rw [List.pairwise_map]
      refine hplaces.increasing.imp_of_mem ?_
      intro place other hplace hother hlt
      have := (hplaces.above place hplace).2
      omega
    · rw [hplaces.records, List.map_map]
      rfl
    · intro place hplace
      rw [hlast, Option.mem_some_iff] at hplace
      exact ⟨by omega, hplaces.ends final hfinal⟩
    · intro counts' m' hcounts' place habove hplace
      rw [hcounts] at hcounts'
      cases hcounts'
      have hbelow : place < (site.history (final.requests - 1)).length := by
        rcases hplace with hplace | ⟨last, hlast', hplace⟩
        · omega
        · rw [hlast, Option.mem_some_iff] at hlast'
          omega
      have hat : site.low (m - 1) ≤ site.base + place := Nat.add_le_add_left habove _
      rcases hplaces.complete (site.base + place) (by omega) (Nat.add_lt_add_left hbelow _) with
        hmem | ⟨visit, hvisit, gap, hgap, hcovers, hgone⟩
      · exact .inl (List.mem_map.mpr ⟨_, hmem, Nat.add_sub_cancel_left _ _⟩)
      · exact .inr ⟨visit, hvisit, gap, hgap, hcovers, Nat.lt_of_add_lt_add_left hgone⟩

/-! ## A busy log of one record -/

/-- A record that holds a moment only. -/
structure Mark where
  date : Encoding.Date
  time : Encoding.Time
  deriving DecidableEq

instance : ResidentLogRecord Mark where
  timestamp := fun mark => (mark.date, mark.time)
  encode := fun _ => .ok []

def markOf (day : UInt8) : Mark := ⟨⟨126, 3, day, 1⟩, ⟨8, 0, 0, 0⟩⟩

/-- Two records were logged, and one more comes between the first two counts. -/
def busySite : Site Mark where
  start := (LogRecordBuffer.new 1).performAll
    [.insertForced (markOf 1), .insertForced (markOf 2)]
  logged := fun n => if n = 1 then [markOf 3] else []
  budget := fun _ => ⟨1476, 100⟩
  frame := fun _ => 20

def busyPage : LogPage Mark where
  records := [markOf 3]
  firstSequenceNumber := some 3
  resultFlags := ⟨true, true, false⟩
  gap := none
  violations := []
  next := .sequence 4
  done := true
  wrapped := false

/-- The record there when the page was asked for is gone when the counts agree, without a gap; so is
the one logged before it. -/
theorem paged_read_drops_what_the_counts_outran :
    busySite.Reads ObjectType.trendLog 10 .oldest 0 [⟨busyPage, 6⟩] ∧
      (busySite.buffer 0).records = [markOf 2] ∧ busySite.history 5 = [markOf 2, markOf 3] ∧
      markOf 2 ∉ busyPage.records ∧ markOf 1 ∉ busyPage.records ∧ busyPage.gap = none := by
  refine ⟨.last (by decide +kernel) rfl, rfl, rfl, by decide, by decide, rfl⟩

/-- Three of four records are left, and three more come between the first two pages. -/
def overrunSite : Site Mark where
  start := (LogRecordBuffer.new 3).performAll
    ([markOf 1, markOf 2, markOf 3, markOf 4].map .insertForced)
  logged := fun n => if n = 4 then [markOf 5, markOf 6, markOf 7] else []
  budget := fun _ => ⟨1476, 100⟩
  frame := fun _ => 20

/-- The second page tells of the record that was gone when it was read. -/
def overrunVisits : List (Visit Mark) :=
  [⟨⟨[markOf 2, markOf 3], some 2, ⟨true, false, false⟩, none, [], .sequence 4, false, false⟩, 4⟩,
    ⟨⟨[markOf 5, markOf 6], some 5, ⟨true, false, false⟩, some ⟨4, 5, some 1⟩, [], .sequence 7, false,
      false⟩, 9⟩,
    ⟨⟨[markOf 7], some 7, ⟨false, true, false⟩, none, [], .sequence 8, true, false⟩, 10⟩]

theorem paged_read_loses_nothing_silently_overrun :
    ∃ places : List ℕ, places.Pairwise (· < ·) ∧
      (overrunVisits.flatMap fun visit => visit.page.records).map some
        = places.map (fun place => (overrunSite.history 9)[place]?) ∧
      ∀ place < 3, place ∈ places ∨ ∃ visit ∈ overrunVisits, ∃ gap, visit.page.gap = some gap ∧
        gap.Covers (overrunSite.number place) ∧ place < overrunSite.oldest (visit.requests - 1) := by
  have hreads : overrunSite.Reads ObjectType.trendLog 2 .oldest 0 overrunVisits :=
    .more (by decide +kernel) rfl (.more (by decide +kernel) rfl (.last (by decide +kernel) rfl))
  obtain ⟨places, hincreasing, hrecords, -, hcomplete⟩ :=
    paged_read_loses_nothing_silently overrunSite 3 _ rfl (by decide) (by decide)
      ObjectType.trendLog (.inl rfl) 2 overrunVisits hreads _ rfl (by decide)
  exact ⟨places, hincreasing, hrecords, fun place hplace =>
    hcomplete (.records 2 4) 3 (by decide +kernel) place (Nat.zero_le _) (.inl hplace)⟩

end Site

end RustyBacnet.Log
