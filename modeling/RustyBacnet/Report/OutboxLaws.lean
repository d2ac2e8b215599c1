import RustyBacnet.Report.Compaction

/-!
# The outbox is a list of notifications

Whatever is pushed, taken and killed, the outbox answers as the plain list of its live notifications
would (`Queue`), within both limits, and no step of it fails.
-/

namespace RustyBacnet.Report

open Cov Slices

/-- What an outbox is for: notifications in the order they leave. -/
abbrev Queue := List Notification

namespace Queue

def octets (queue : Queue) : ℕ := (queue.map (·.params.length)).sum

/-- A newer unconfirmed notification for the key replaces the notification. -/
def answers (key : CovSubscriptionKey) (notification : Notification) : Bool :=
  !notification.notice.confirmed && notification.notice.key == key

/-- The notification fits beside the others. -/
def Fits (limits : OutboxLimits) (others : Queue) (params : List UInt8) : Prop :=
  others.length < limits.entries ∧ octets others + params.length ≤ limits.octets

instance (limits : OutboxLimits) (others : Queue) (params : List UInt8) :
    Decidable (Fits limits others params) :=
  inferInstanceAs (Decidable (_ ∧ _))

/-- The notification comes last, or in place of the one it replaces. -/
def push (limits : OutboxLimits) (queue : Queue) (notice : Notice) (params : List UInt8) :
    Pushed × Queue :=
  match if notice.confirmed then none else queue.findIdx? (answers notice.key) with
  | none =>
    if Fits limits queue params then (⟨true, none⟩, queue ++ [⟨notice, params⟩])
    else (⟨false, none⟩, queue)
  | some at_ =>
    let replaced := queue[at_]?.map (·.notice.token)
    if Fits limits (queue.eraseIdx at_) params then
      (⟨true, replaced⟩, queue.set at_ ⟨notice, params⟩)
    else (⟨false, replaced⟩, queue.eraseIdx at_)

def pop (queue : Queue) : Option (Notice × List UInt8) × Queue :=
  (queue.head?.map fun first => (first.notice, first.params), queue.tail)

def kill (queue : Queue) (dead : Notice → Bool) : Queue :=
  queue.filter fun notification => !dead notification.notice

end Queue

/-! ## What the entries show -/

def contentsOf (entries : List Entry) (buf : List UInt8) : Queue :=
  (entries.map (·.shown buf)).filterMap id

def Outbox.contents (outbox : Outbox) : Queue := contentsOf outbox.entries outbox.buf

/-- The counters are those of what the outbox shows, within its limits. -/
structure Outbox.Sound (outbox : Outbox) : Prop extends Packed outbox.entries outbox.buf where
  live_eq : outbox.live = outbox.contents.length
  octets_eq : outbox.liveOctets = outbox.contents.octets
  buf_le : outbox.buf.length ≤ outbox.limits.octets
  entries_le : outbox.entries.length ≤ outbox.limits.entries
  octets_le : outbox.liveOctets ≤ outbox.limits.octets

theorem contentsOf_append (entries others : List Entry) (buf : List UInt8) :
    contentsOf (entries ++ others) buf = contentsOf entries buf ++ contentsOf others buf := by
  unfold contentsOf
  rw [List.map_append, List.filterMap_append]

variable {entry : Entry}

theorem contentsOf_live (entries : List Entry) (buf : List UInt8) (h : entry.live = true) :
    contentsOf (entry :: entries) buf
      = ⟨entry.toNotice, slice buf entry.start entry.len⟩ :: contentsOf entries buf := by
  unfold contentsOf
  rw [List.map_cons, shown_of_live buf h]
  rfl

theorem contentsOf_dead (entries : List Entry) (buf : List UInt8) (h : ¬entry.live = true) :
    contentsOf (entry :: entries) buf = contentsOf entries buf := by
  unfold contentsOf
  rw [List.map_cons, shown_of_dead buf h]
  rfl

variable {buf : List UInt8} {entries : List Entry} {notification : Notification}

theorem mem_contentsOf (h : notification ∈ contentsOf entries buf) :
    ∃ entry ∈ entries, entry.live = true ∧ notification.notice = entry.toNotice := by
  induction entries with
  | nil => exact absurd h List.not_mem_nil
  | cons entry entries ih =>
    by_cases hlive : entry.live = true
    · rw [contentsOf_live entries buf hlive, List.mem_cons] at h
      rcases h with rfl | h
      · exact ⟨entry, List.mem_cons_self, hlive, rfl⟩
      · obtain ⟨other, hother, hrest⟩ := ih h
        exact ⟨other, List.mem_cons_of_mem _ hother, hrest⟩
    · rw [contentsOf_dead entries buf hlive] at h
      obtain ⟨other, hother, hrest⟩ := ih h
      exact ⟨other, List.mem_cons_of_mem _ hother, hrest⟩

@[simp] theorem octets_cons (notification : Notification) (queue : Queue) :
    Queue.octets (notification :: queue) = notification.params.length + queue.octets := by
  unfold Queue.octets
  rw [List.map_cons, List.sum_cons]

variable (queue : Queue)

@[simp] theorem octets_append (others : Queue) :
    Queue.octets (queue ++ others) = queue.octets + Queue.octets others := by
  unfold Queue.octets
  rw [List.map_append, List.sum_append]

theorem Packed.of_sublist {others : List Entry} (h : Packed entries buf)
    (hsub : others.Sublist entries) : Packed others buf where
  inside := fun entry hentry => h.inside entry (hsub.subset hentry)
  clear := h.clear.sublist hsub

theorem slice_append_left {params : List UInt8} {start len : ℕ} (h : start + len ≤ buf.length) :
    slice (buf ++ params) start len = slice buf start len := by
  unfold slice
  rw [List.drop_append_of_le_length (by omega), List.take_append_of_le_length]
  rw [List.length_drop]
  omega

theorem slice_append_right (buf params : List UInt8) :
    slice (buf ++ params) buf.length params.length = params := by
  unfold slice
  rw [List.drop_left, List.take_length]

variable {α : Type}

theorem findIdx?_split {p : α → Bool} {xs : List α} {i : ℕ} (h : xs.findIdx? p = some i) :
    ∃ before x after, xs = before ++ x :: after ∧ before.length = i ∧ p x = true ∧
      ∀ y ∈ before, p y = false := by
  induction xs generalizing i with
  | nil => cases h
  | cons x xs ih =>
    rw [List.findIdx?_cons] at h
    by_cases hx : p x = true
    · rw [if_pos hx, Option.some.injEq] at h
      exact ⟨[], x, xs, rfl, h, hx, fun _ hy => absurd hy List.not_mem_nil⟩
    · rw [if_neg hx, Option.map_eq_some_iff] at h
      obtain ⟨index, hindex, rfl⟩ := h
      obtain ⟨before, y, after, rfl, rfl, hy, hnone⟩ := ih hindex
      refine ⟨x :: before, y, after, rfl, rfl, hy, ?_⟩
      intro z hz
      rw [List.mem_cons] at hz
      rcases hz with rfl | hz
      · exact Bool.eq_false_iff.mpr hx
      · exact hnone z hz

theorem findIdx?_middle {p : α → Bool} {before after : List α} {x : α} (hx : p x = true)
    (h : ∀ y ∈ before, p y = false) : (before ++ x :: after).findIdx? p = some before.length := by
  induction before with
  | nil => rw [List.nil_append, List.findIdx?_cons, if_pos hx]; rfl
  | cons y before ih =>
    have hy := h y List.mem_cons_self
    rw [List.cons_append, List.findIdx?_cons, if_neg (by rw [hy]; exact Bool.false_ne_true),
      ih fun z hz => h z (List.mem_cons_of_mem _ hz)]
    rfl

/-! ## Pushing -/

theorem checkedSub_eq {a b : ℕ} (h : b ≤ a) : checkedSub a b = some (a - b) := if_pos h

variable {before after : List Entry}

/-- A notification whose parameters are written at the buffer's end, between entries. -/
theorem write_spec (h : Packed (before ++ after) buf) (notice : Notice) (params : List UInt8) :
    let entry : Entry := ⟨notice, buf.length, params.length, true⟩
    Packed (before ++ entry :: after) (buf ++ params) ∧
      contentsOf (before ++ entry :: after) (buf ++ params)
        = contentsOf before buf ++ ⟨notice, params⟩ :: contentsOf after buf := by
  intro entry
  obtain ⟨hinside, hclear⟩ := h
  have hsame : ∀ others : List Entry, (∀ other ∈ others, other ∈ before ++ after) →
      contentsOf others (buf ++ params) = contentsOf others buf := by
    intro others hothers
    unfold contentsOf
    congr 1
    refine List.map_congr_left fun other hother => ?_
    refine shown_congr rfl rfl (fun hoccupies => ?_) rfl
    exact slice_append_left (hinside other (hothers other hother) hoccupies.1)
  refine ⟨⟨?_, ?_⟩, ?_⟩
  · intro other hother hlive
    rw [List.mem_append, List.mem_cons] at hother
    rw [List.length_append]
    rcases hother with hother | rfl | hother
    · exact (hinside other (List.mem_append_left _ hother) hlive).trans (Nat.le_add_right _ _)
    · exact Nat.le_refl _
    · exact (hinside other (List.mem_append_right _ hother) hlive).trans (Nat.le_add_right _ _)
  · refine pairwise_clear_middle.mpr ⟨fun other hother _ hoccupies => ?_, hclear⟩
    exact .inr (hinside other hother hoccupies.1)
  · rw [contentsOf_append, contentsOf_live after _ rfl,
      hsame before fun _ => List.mem_append_left after,
      hsame after fun _ => List.mem_append_right before, slice_append_right]

variable {outbox : Outbox}

/-- Dropping a live entry takes its notification out. -/
theorem drop_spec (h : outbox.Sound) {old : Entry}
    (hentries : outbox.entries = before ++ old :: after) (hlive : old.live = true) :
    ∃ dropped, outbox.drop before.length = some (old.token, dropped) ∧ dropped.Sound ∧
      dropped.limits = outbox.limits ∧
      dropped.entries = before ++ { old with live := false } :: after ∧
      dropped.buf = outbox.buf ∧
      dropped.contents = contentsOf before outbox.buf ++ contentsOf after outbox.buf := by
  obtain ⟨hpacked, hcount, hoctets, hbuf, hlen, hwithin⟩ := h
  have hinside := hpacked.inside old (by rw [hentries]; exact List.mem_append_right _ List.mem_cons_self)
    hlive
  have hcontents : outbox.contents = contentsOf before outbox.buf ++
      ⟨old.toNotice, slice outbox.buf old.start old.len⟩ :: contentsOf after outbox.buf := by
    unfold Outbox.contents
    rw [hentries, contentsOf_append, contentsOf_live after outbox.buf hlive]
  have hdead : contentsOf (before ++ { old with live := false } :: after) outbox.buf
      = contentsOf before outbox.buf ++ contentsOf after outbox.buf := by
    rw [contentsOf_append, contentsOf_dead after outbox.buf Bool.false_ne_true]
  have hsize := @length_slice _ outbox.buf old.start old.len hinside
  rw [hcontents, List.length_append, List.length_cons] at hcount
  rw [hcontents, octets_append, octets_cons, hsize] at hoctets
  have hget : outbox.entries[before.length]? = some old := by
    rw [hentries, List.getElem?_append_right (Nat.le_refl _), Nat.sub_self, List.getElem?_cons_zero]
  have hset : outbox.entries.set before.length { old with live := false }
      = before ++ { old with live := false } :: after := by
    rw [hentries, List.set_append_right _ _ (Nat.le_refl _), Nat.sub_self, List.set_cons_zero]
  refine ⟨{ outbox with
    entries := before ++ { old with live := false } :: after
    live := outbox.live - 1
    liveOctets := outbox.liveOctets - old.len }, ?_, ⟨⟨?_, ?_⟩, ?_, ?_, hbuf, ?_, ?_⟩, rfl, rfl, rfl, hdead⟩
  · unfold Outbox.drop
    rw [hget, Option.bind_eq_bind, Option.bind_some, checkedSub_eq (by omega),
      Option.bind_eq_bind, Option.bind_some, checkedSub_eq (by omega), Option.bind_some, hset]
  · intro entry hentry hshown
    refine hpacked.inside entry ?_ hshown
    rw [hentries]
    rw [List.mem_append, List.mem_cons] at hentry ⊢
    rcases hentry with hentry | rfl | hentry
    · exact .inl hentry
    · exact absurd hshown Bool.false_ne_true
    · exact .inr (.inr hentry)
  · have hclear := hpacked.clear
    rw [hentries] at hclear
    refine pairwise_clear_middle.mpr ⟨fun other _ hoccupies => ?_,
      (pairwise_clear_middle.mp hclear).2⟩
    exact absurd hoccupies.1 Bool.false_ne_true
  · show outbox.live - 1 = (contentsOf _ outbox.buf).length
    rw [hdead, List.length_append]
    omega
  · show outbox.liveOctets - old.len = (contentsOf _ outbox.buf).octets
    rw [hdead, octets_append]
    omega
  · show (before ++ { old with live := false } :: after).length ≤ outbox.limits.entries
    rw [hentries, List.length_append, List.length_cons] at hlen
    rw [List.length_append, List.length_cons]
    exact hlen
  · exact (Nat.sub_le _ _).trans hwithin

theorem filter_spec (entries : List Entry) (buf : List UInt8) :
    contentsOf (entries.filter (·.live)) buf = contentsOf entries buf := by
  induction entries with
  | nil => rfl
  | cons entry entries ih =>
    by_cases hlive : entry.live = true
    · rw [List.filter_cons_of_pos hlive, contentsOf_live _ buf hlive, contentsOf_live _ buf hlive,
        ih]
    · rw [List.filter_cons_of_neg hlive, contentsOf_dead _ buf hlive, ih]

/-- The entries and the buffer that a notification is written to, compacted if it needs room. -/
theorem room_spec {outbox : Outbox} (h : outbox.Sound) {params : List UInt8}
    (hfits : outbox.liveOctets + params.length ≤ outbox.limits.octets) :
    ∃ entries buf, outbox.makeRoom params.length
        = some { outbox with entries := entries, buf := buf } ∧
      Packed entries buf ∧
      entries.map (·.shown buf) = outbox.entries.map (·.shown outbox.buf) ∧
      buf.length + params.length ≤ outbox.limits.octets := by
  unfold Outbox.makeRoom
  by_cases hfull : outbox.buf.length + params.length > outbox.limits.octets
  · rw [if_pos hfull]
    obtain ⟨entries, buf, hcompact, hpacked, hshown, hlength⟩ := compact_spec h.toPacked
    refine ⟨entries, buf, hcompact, hpacked, hshown, ?_⟩
    have hoctets : octetsOf entries = outbox.liveOctets := by
      rw [octetsOf_eq hpacked.inside, hshown, h.octets_eq]
      rfl
    omega
  · rw [if_neg hfull]
    exact ⟨outbox.entries, outbox.buf, rfl, h.toPacked, rfl, Nat.le_of_not_lt hfull⟩

theorem stored_spec {outbox : Outbox} {before after : List Entry} {buf : List UInt8}
    (h : Packed (before ++ after) buf) (notice : Notice) {params : List UInt8}
    (hlive : outbox.live = (contentsOf before buf ++ contentsOf after buf).length)
    (hoctets : outbox.liveOctets = (contentsOf before buf ++ contentsOf after buf).octets)
    (hfits : outbox.liveOctets + params.length ≤ outbox.limits.octets)
    (hroom : buf.length + params.length ≤ outbox.limits.octets)
    (hslot : before.length + after.length < outbox.limits.entries) :
    let stored : Outbox := { outbox with
      buf := buf ++ params
      entries := before ++ ⟨notice, buf.length, params.length, true⟩ :: after
      live := outbox.live + 1
      liveOctets := outbox.liveOctets + params.length }
    stored.Sound ∧
      stored.contents = contentsOf before buf ++ ⟨notice, params⟩ :: contentsOf after buf := by
  intro stored
  obtain ⟨hpacked, hcontents⟩ := write_spec h notice params
  refine ⟨⟨hpacked, ?_, ?_, ?_, ?_, hfits⟩, hcontents⟩
  · show outbox.live + 1 = (contentsOf _ _).length
    rw [hcontents, hlive, List.length_append, List.length_append, List.length_cons]
    rfl
  · show outbox.liveOctets + params.length = (contentsOf _ _).octets
    rw [hcontents, hoctets, octets_append, octets_append, octets_cons]
    dsimp only
    omega
  · show (buf ++ params).length ≤ outbox.limits.octets
    rw [List.length_append]
    exact hroom
  · show (before ++ _ :: after).length ≤ outbox.limits.entries
    rw [List.length_append, List.length_cons]
    omega

theorem answers_of_live (h : entry.live = true) (key : CovSubscriptionKey) (params : List UInt8) :
    entry.answers key = Queue.answers key ⟨entry.toNotice, params⟩ := by
  unfold Entry.answers Queue.answers
  rw [h, Bool.true_and]

theorem answers_contents {key : CovSubscriptionKey}
    (h : ∀ entry ∈ entries, entry.answers key = false) :
    ∀ notification ∈ contentsOf entries buf, Queue.answers key notification = false := by
  intro notification hmem
  obtain ⟨entry, hentry, hlive, hnotice⟩ := mem_contentsOf hmem
  rw [← h entry hentry, answers_of_live hlive key notification.params, ← hnotice]

theorem fits_iff (h : outbox.Sound) (params : List UInt8) :
    Queue.Fits outbox.limits outbox.contents params ↔
      outbox.live < outbox.limits.entries ∧
        outbox.liveOctets + params.length ≤ outbox.limits.octets := by
  rw [h.live_eq, h.octets_eq]
  exact Iff.rfl

/-- With a place for one more, a full outbox gives its dead entries up. -/
theorem slot_spec (h : outbox.Sound) (hplace : outbox.live < outbox.limits.entries) :
    ∃ entries, (if outbox.entries.length == outbox.limits.entries then
        { outbox with entries := outbox.entries.filter (·.live) } else outbox)
          = { outbox with entries := entries } ∧
      Outbox.Sound { outbox with entries := entries } ∧
      contentsOf entries outbox.buf = outbox.contents ∧
      entries.length < outbox.limits.entries := by
  by_cases hfull : outbox.entries.length = outbox.limits.entries
  · rw [if_pos (beq_iff_eq.mpr hfull)]
    have hcontents : contentsOf (outbox.entries.filter (·.live)) outbox.buf = outbox.contents :=
      filter_spec outbox.entries outbox.buf
    have hcount : (outbox.entries.filter (·.live)).length = outbox.live := by
      rw [h.live_eq]
      exact List.countP_eq_length_filter.symm.trans (liveOf_eq outbox.entries outbox.buf)
    refine ⟨_, rfl, ⟨h.toPacked.of_sublist List.filter_sublist, ?_, ?_, h.buf_le,
      (List.length_filter_le _ _).trans h.entries_le, h.octets_le⟩, hcontents, ?_⟩
    · show outbox.live = (contentsOf _ _).length
      rw [hcontents]
      exact h.live_eq
    · show outbox.liveOctets = (contentsOf _ _).octets
      rw [hcontents]
      exact h.octets_eq
    · rw [hcount]
      exact hplace
  · rw [if_neg (fun heq => hfull (beq_iff_eq.mp heq))]
    exact ⟨outbox.entries, rfl, h, rfl, Nat.lt_of_le_of_ne h.entries_le hfull⟩

variable {notice : Notice} {params : List UInt8}

section Last

variable (hat : (if notice.confirmed then none
  else outbox.entries.findIdx? (·.answers notice.key)) = none)

include hat

theorem Queue.push_last (limits : OutboxLimits) (params : List UInt8) :
    outbox.contents.push limits notice params
      = if Fits limits outbox.contents params
        then (⟨true, none⟩, outbox.contents ++ [⟨notice, params⟩])
        else (⟨false, none⟩, outbox.contents) := by
  have hnone : (if notice.confirmed then none
      else outbox.contents.findIdx? (Queue.answers notice.key)) = none := by
    by_cases hconfirmed : notice.confirmed = true
    · rw [if_pos hconfirmed]
    · rw [if_neg hconfirmed, List.findIdx?_eq_none_iff] at hat
      rw [if_neg hconfirmed, List.findIdx?_eq_none_iff]
      exact answers_contents hat
  unfold Queue.push
  rw [hnone]

theorem push_last (h : outbox.Sound) (hfits : Queue.Fits outbox.limits outbox.contents params) :
    ∃ pushed, outbox.push notice params = some (⟨true, none⟩, pushed) ∧ pushed.Sound ∧
      pushed.limits = outbox.limits ∧ pushed.contents = outbox.contents ++ [⟨notice, params⟩] := by
  have hroom := (fits_iff h params).mp hfits
  obtain ⟨slotted, hslotted, hkept, hcontents, hslot⟩ := slot_spec h hroom.1
  obtain ⟨entries, buf, hmade, hpacked, hshown, hbuf⟩ := room_spec hkept hroom.2
  have hsame : contentsOf entries buf = outbox.contents := by
    rw [← hcontents]
    exact congrArg (List.filterMap id) hshown
  have hlength : entries.length = slotted.length := by
    have := congrArg List.length hshown
    rwa [List.length_map, List.length_map] at this
  obtain ⟨hstored, hcontentsStored⟩ := @stored_spec outbox entries [] buf
    (by rw [List.append_nil]; exact hpacked) notice params
    (by rw [h.live_eq, hsame]; exact (congrArg _ (List.append_nil _)).symm)
    (by rw [h.octets_eq, hsame]; exact (congrArg _ (List.append_nil _)).symm) hroom.2 hbuf
    (by rw [hlength, List.length_nil, Nat.add_zero]; exact hslot)
  refine ⟨_, ?_, hstored, rfl, ?_⟩
  · unfold Outbox.push
    rw [hat]
    dsimp only
    rw [Option.bind_eq_bind, Option.bind_some, if_neg (not_not_intro hroom)]
    simp only [Option.isNone_none, Bool.true_and]
    rw [hslotted, hmade]
    rfl
  · rw [hcontentsStored, hsame]
    rfl

theorem push_last_refused (h : outbox.Sound)
    (hfits : ¬Queue.Fits outbox.limits outbox.contents params) :
    outbox.push notice params = some (⟨false, none⟩, outbox) := by
  unfold Outbox.push
  rw [hat]
  dsimp only
  rw [Option.bind_eq_bind, Option.bind_some,
    if_pos (fun hroom => hfits ((fits_iff h params).mpr hroom))]

end Last

section Replacing

variable (hconfirmed : ¬notice.confirmed = true)

include hconfirmed

theorem Queue.push_replacing (limits : OutboxLimits) {first last : Queue} {old : Notification}
    (hold : answers notice.key old = true)
    (hfirst : ∀ notification ∈ first, answers notice.key notification = false)
    (params : List UInt8) :
    Queue.push limits (first ++ old :: last) notice params
      = if Fits limits (first ++ last) params
        then (⟨true, some old.notice.token⟩, first ++ ⟨notice, params⟩ :: last)
        else (⟨false, some old.notice.token⟩, first ++ last) := by
  unfold Queue.push
  rw [if_neg hconfirmed, findIdx?_middle hold hfirst]
  dsimp only
  rw [List.eraseIdx_append_of_length_le (Nat.le_refl _),
    List.getElem?_append_right (Nat.le_refl _), List.set_append_right _ _ (Nat.le_refl _),
    Nat.sub_self, List.eraseIdx_cons_zero, List.getElem?_cons_zero, List.set_cons_zero,
    Option.map_some]

variable {old : Entry} (hentries : outbox.entries = before ++ old :: after)
  (hlive : old.live = true)
  (hat : outbox.entries.findIdx? (·.answers notice.key) = some before.length)

include hentries hlive hat

theorem push_replacing (h : outbox.Sound) (hfits : Queue.Fits outbox.limits
      (contentsOf before outbox.buf ++ contentsOf after outbox.buf) params) :
    ∃ pushed, outbox.push notice params = some (⟨true, some old.token⟩, pushed) ∧
      pushed.Sound ∧ pushed.limits = outbox.limits ∧
      pushed.contents
        = contentsOf before outbox.buf ++ ⟨notice, params⟩ :: contentsOf after outbox.buf := by
  obtain ⟨dropped, hdrop, hkept, hlimits, hdropped, hbuf, hrest⟩ := drop_spec h hentries hlive
  rw [← hrest, ← hlimits] at hfits
  have hroom := (fits_iff hkept params).mp hfits
  obtain ⟨entries, buf, hmade, hpacked, hshown, hlast⟩ := room_spec hkept hroom.2
  -- the entries written between are those before and after the dead one
  rw [hdropped, hbuf, List.map_append, List.map_cons] at hshown
  obtain ⟨first, rest, rfl, hfirst, hrestShown⟩ := List.map_eq_append_iff.mp hshown
  obtain ⟨dead, last, rfl, hdead, hlastShown⟩ := List.map_eq_cons_iff.mp hrestShown
  have hlength : first.length = before.length := by
    have := congrArg List.length hfirst
    rwa [List.length_map, List.length_map] at this
  have hafterLength : last.length = after.length := by
    have := congrArg List.length hlastShown
    rwa [List.length_map, List.length_map] at this
  have hfirstContents : contentsOf first buf = contentsOf before outbox.buf :=
    congrArg (List.filterMap id) hfirst
  have hlastContents : contentsOf last buf = contentsOf after outbox.buf :=
    congrArg (List.filterMap id) hlastShown
  have hslot := hkept.entries_le
  rw [hdropped, List.length_append, List.length_cons] at hslot
  obtain ⟨hstored, hcontentsStored⟩ := @stored_spec dropped first last buf
    (hpacked.of_sublist ((List.Sublist.refl first).append (List.sublist_cons_self dead last)))
    notice params (by rw [hkept.live_eq, hrest, hfirstContents, hlastContents])
    (by rw [hkept.octets_eq, hrest, hfirstContents, hlastContents]) hroom.2 hlast (by omega)
  refine ⟨_, ?_, hstored, hlimits, ?_⟩
  · unfold Outbox.push
    rw [if_neg hconfirmed, hat]
    dsimp only
    rw [hdrop, Option.map_some, Option.bind_eq_bind, Option.bind_some,
      if_neg (not_not_intro hroom)]
    simp only [Option.isNone_some, Bool.false_and, Bool.false_eq_true, if_false]
    rw [hmade, Option.bind_eq_bind, Option.bind_some, ← hlength,
      List.set_append_right _ _ (Nat.le_refl _), Nat.sub_self, List.set_cons_zero]
  · rw [hcontentsStored, hfirstContents, hlastContents]

theorem push_replacing_refused (h : outbox.Sound) (hfits : ¬Queue.Fits outbox.limits
      (contentsOf before outbox.buf ++ contentsOf after outbox.buf) params) :
    ∃ dropped, outbox.push notice params = some (⟨false, some old.token⟩, dropped) ∧
      dropped.Sound ∧ dropped.limits = outbox.limits ∧
      dropped.contents = contentsOf before outbox.buf ++ contentsOf after outbox.buf := by
  obtain ⟨dropped, hdrop, hkept, hlimits, -, -, hrest⟩ := drop_spec h hentries hlive
  rw [← hrest, ← hlimits] at hfits
  refine ⟨dropped, ?_, hkept, hlimits, hrest⟩
  unfold Outbox.push
  rw [if_neg hconfirmed, hat]
  dsimp only
  rw [hdrop, Option.map_some, Option.bind_eq_bind, Option.bind_some,
    if_pos (fun hroom => hfits ((fits_iff hkept params).mpr hroom))]

end Replacing

/-- A push is the list's. -/
theorem push_spec (h : outbox.Sound) (notice : Notice) (params : List UInt8) :
    ∃ pushed, outbox.push notice params
        = some ((outbox.contents.push outbox.limits notice params).1, pushed) ∧
      pushed.Sound ∧ pushed.limits = outbox.limits ∧
      pushed.contents = (outbox.contents.push outbox.limits notice params).2 := by
  cases hat : if notice.confirmed then none
    else outbox.entries.findIdx? (·.answers notice.key) with
  | none =>
    rw [Queue.push_last hat]
    by_cases hfits : Queue.Fits outbox.limits outbox.contents params
    · rw [if_pos hfits]
      exact push_last hat h hfits
    · rw [if_neg hfits]
      exact ⟨outbox, push_last_refused hat h hfits, h, rfl, rfl⟩
  | some at_ =>
    have hconfirmed : ¬notice.confirmed = true := by
      intro hconfirmed
      rw [if_pos hconfirmed] at hat
      cases hat
    rw [if_neg hconfirmed] at hat
    obtain ⟨before, old, after, hentries, rfl, hanswers, hothers⟩ := findIdx?_split hat
    have hlive : old.live = true := by
      unfold Entry.answers at hanswers
      simp only [Bool.and_eq_true] at hanswers
      exact hanswers.1.1
    have hcontents : outbox.contents = contentsOf before outbox.buf ++
        ⟨old.toNotice, slice outbox.buf old.start old.len⟩ :: contentsOf after outbox.buf := by
      unfold Outbox.contents
      rw [hentries, contentsOf_append, contentsOf_live after outbox.buf hlive]
    rw [hcontents, Queue.push_replacing hconfirmed outbox.limits
      ((answers_of_live hlive notice.key _).symm.trans hanswers) (answers_contents hothers)]
    by_cases hfits : Queue.Fits outbox.limits
        (contentsOf before outbox.buf ++ contentsOf after outbox.buf) params
    · rw [if_pos hfits]
      exact push_replacing hconfirmed hentries hlive hat h hfits
    · rw [if_neg hfits]
      exact push_replacing_refused hconfirmed hentries hlive hat h hfits

/-! ## Taking and killing -/

/-- The loop of `pop` takes the list's first. -/
theorem popLoop_spec (outbox : Outbox) (h : Packed entries outbox.buf)
    (hlive : outbox.live = (contentsOf entries outbox.buf).length)
    (hoctets : outbox.liveOctets = (contentsOf entries outbox.buf).octets) :
    ∃ rest, outbox.popLoop entries = some ((contentsOf entries outbox.buf).pop.1,
        { outbox with
          entries := rest
          live := (contentsOf entries outbox.buf).tail.length
          liveOctets := Queue.octets (contentsOf entries outbox.buf).tail }) ∧
      rest.Sublist entries ∧
      contentsOf rest outbox.buf = (contentsOf entries outbox.buf).tail := by
  induction entries with
  | nil =>
    refine ⟨[], ?_, List.Sublist.refl [], rfl⟩
    have hnone : outbox.live = 0 := hlive
    have hempty : outbox.liveOctets = 0 := hoctets
    unfold Outbox.popLoop
    rw [hnone, hempty]
    rfl
  | cons entry entries ih =>
    unfold Outbox.popLoop
    by_cases hshown : entry.live = true
    · have hinside := h.inside entry List.mem_cons_self hshown
      have hread : entry.read outbox.buf = some (slice outbox.buf entry.start entry.len) :=
        if_pos hinside
      have hsize := length_slice hinside
      rw [contentsOf_live entries outbox.buf hshown] at hlive hoctets ⊢
      rw [List.length_cons] at hlive
      rw [octets_cons, hsize] at hoctets
      refine ⟨entries, ?_, List.sublist_cons_self entry entries, rfl⟩
      rw [if_pos hshown, checkedSub_eq (by omega), Option.bind_eq_bind, Option.bind_some,
        checkedSub_eq (by omega), Option.bind_some, hread, Option.bind_eq_bind, Option.bind_some]
      have hone : outbox.live - 1 = (contentsOf entries outbox.buf).length := by omega
      have hother : outbox.liveOctets - entry.len = Queue.octets (contentsOf entries outbox.buf) := by
        omega
      rw [hone, hother]
      rfl
    · rw [if_neg hshown]
      rw [contentsOf_dead entries outbox.buf hshown] at hlive hoctets ⊢
      obtain ⟨rest, hloop, hsub, hcontents⟩ :=
        ih (h.of_sublist (List.sublist_cons_self entry entries)) hlive hoctets
      exact ⟨rest, hloop, hsub.trans (List.sublist_cons_self entry entries), hcontents⟩

theorem octets_tail_le : Queue.octets queue.tail ≤ queue.octets := by
  cases queue with
  | nil => exact Nat.le_refl _
  | cons first queue =>
    rw [octets_cons]
    exact Nat.le_add_left _ _

/-- A pop is the list's. -/
theorem pop_spec (h : outbox.Sound) :
    ∃ popped, outbox.pop = some (outbox.contents.pop.1, popped) ∧ popped.Sound ∧
      popped.limits = outbox.limits ∧ popped.contents = outbox.contents.pop.2 := by
  obtain ⟨rest, hloop, hsub, hcontents⟩ :=
    popLoop_spec outbox h.toPacked h.live_eq h.octets_eq
  have hlength := hsub.length_le.trans h.entries_le
  have hoctets : Queue.octets outbox.contents.tail ≤ outbox.limits.octets :=
    (octets_tail_le _).trans (h.octets_eq ▸ h.octets_le)
  have hsound : Outbox.Sound { outbox with
      entries := rest
      live := outbox.contents.tail.length
      liveOctets := Queue.octets outbox.contents.tail } :=
    ⟨h.toPacked.of_sublist hsub, (congrArg List.length hcontents).symm,
      (congrArg Queue.octets hcontents).symm, h.buf_le, hlength, hoctets⟩
  unfold Outbox.pop
  have htaken : outbox.popLoop outbox.entries = some (outbox.contents.pop.1,
      { outbox with
        entries := rest
        live := outbox.contents.tail.length
        liveOctets := Queue.octets outbox.contents.tail }) := hloop
  change contentsOf rest outbox.buf = outbox.contents.tail at hcontents
  rw [htaken, Option.bind_eq_bind, Option.bind_some]
  cases hfirst : outbox.contents with
  | nil =>
    rw [hfirst] at hcontents hsound
    exact ⟨_, rfl, hsound, rfl, hcontents⟩
  | cons first queue =>
    rw [hfirst] at hcontents hsound
    by_cases hnone : queue.length = 0
    · have hempty : queue = [] := List.eq_nil_of_length_eq_zero hnone
      refine ⟨{ outbox with
        entries := [], buf := [], live := queue.length, liveOctets := Queue.octets queue }, ?_,
        ⟨⟨nofun, List.Pairwise.nil⟩, ?_, ?_, Nat.zero_le _, Nat.zero_le _, ?_⟩, rfl, ?_⟩
      · exact if_pos hnone
      · rw [hempty]
        rfl
      · rw [hempty]
        rfl
      · exact hsound.octets_le
      · exact hempty.symm
    · exact ⟨_, if_neg hnone, hsound, rfl, hcontents⟩

variable {dead : Notice → Bool}

theorem kill_dead (h : dead notification.notice = true) :
    Queue.kill (notification :: queue) dead = queue.kill dead :=
  List.filter_cons_of_neg (by rw [h]; exact Bool.false_ne_true)

theorem kill_kept (h : ¬dead notification.notice = true) :
    Queue.kill (notification :: queue) dead = notification :: queue.kill dead :=
  List.filter_cons_of_pos (by rw [Bool.eq_false_iff.mpr h]; rfl)

theorem octets_kill_le (dead : Notice → Bool) : Queue.octets (queue.kill dead) ≤ queue.octets := by
  induction queue with
  | nil => exact Nat.le_refl _
  | cons first queue ih =>
    rw [octets_cons]
    by_cases hdead : dead first.notice = true
    · rw [kill_dead queue hdead]
      omega
    · rw [kill_kept queue hdead, octets_cons]
      omega

/-- An entry once `dead` has named it or not. -/
def Entry.killed (dead : Notice → Bool) (entry : Entry) : Entry :=
  if entry.live && dead entry.toNotice then { entry with live := false } else entry

/-- The loop of `kill` marks the entries and takes them off the counters. -/
theorem killLoop_spec (dead : Notice → Bool)
    (h : ∀ entry ∈ entries, entry.live = true → entry.start + entry.len ≤ buf.length)
    {live liveOctets : ℕ} (hlive : (contentsOf entries buf).length ≤ live)
    (hoctets : (contentsOf entries buf).octets ≤ liveOctets) :
    ∃ live' liveOctets', Outbox.killLoop dead entries live liveOctets
        = some (entries.map (·.killed dead), live', liveOctets') ∧
      contentsOf (entries.map (·.killed dead)) buf = (contentsOf entries buf).kill dead ∧
      live' + (contentsOf entries buf).length
        = live + ((contentsOf entries buf).kill dead).length ∧
      liveOctets' + (contentsOf entries buf).octets
        = liveOctets + Queue.octets ((contentsOf entries buf).kill dead) := by
  induction entries generalizing live liveOctets with
  | nil => exact ⟨live, liveOctets, rfl, rfl, rfl, rfl⟩
  | cons entry entries ih =>
    have hrest := fun other hother => h other (List.mem_cons_of_mem entry hother)
    have hhead := h entry List.mem_cons_self
    unfold Outbox.killLoop
    rw [List.map_cons]
    by_cases hshown : entry.live = true
    · have hsize := length_slice (hhead hshown)
      rw [contentsOf_live entries buf hshown] at hlive hoctets ⊢
      rw [List.length_cons] at hlive
      rw [octets_cons, hsize] at hoctets
      by_cases hdead : dead entry.toNotice = true
      · have hmarked : entry.killed dead = { entry with live := false } := by
          unfold Entry.killed
          rw [hshown, hdead, Bool.true_and, if_pos rfl]
        obtain ⟨live', liveOctets', hloop, hcontents, hcount, htotal⟩ :=
          @ih hrest (live - 1) (liveOctets - entry.len) (by omega) (by omega)
        refine ⟨live', liveOctets', ?_, ?_, ?_, ?_⟩
        · rw [hshown, hdead, Bool.true_and, if_pos rfl, checkedSub_eq (by omega),
            Option.bind_eq_bind, Option.bind_some, checkedSub_eq (by omega), Option.bind_some,
            hloop, hmarked]
          rfl
        · rw [hmarked, contentsOf_dead _ buf Bool.false_ne_true, hcontents, kill_dead _ hdead]
        · rw [kill_dead _ hdead, List.length_cons]
          omega
        · rw [kill_dead _ hdead, octets_cons, hsize]
          omega
      · have hkept : entry.killed dead = entry := by
          unfold Entry.killed
          rw [hshown, Bool.true_and, if_neg hdead]
        obtain ⟨live', liveOctets', hloop, hcontents, hcount, htotal⟩ :=
          @ih hrest live liveOctets (by omega) (by omega)
        refine ⟨live', liveOctets', ?_, ?_, ?_, ?_⟩
        · rw [hshown, Bool.true_and, if_neg hdead, hloop, hkept]
          rfl
        · rw [hkept, contentsOf_live _ buf hshown, hcontents, kill_kept _ hdead]
        · rw [kill_kept _ hdead, List.length_cons, List.length_cons]
          omega
        · rw [kill_kept _ hdead, octets_cons, octets_cons]
          omega
    · have hkept : entry.killed dead = entry := by
        unfold Entry.killed
        rw [Bool.eq_false_iff.mpr hshown]
        rfl
      rw [contentsOf_dead entries buf hshown] at hlive hoctets ⊢
      obtain ⟨live', liveOctets', hloop, hcontents, hcount, htotal⟩ := ih hrest hlive hoctets
      refine ⟨live', liveOctets', ?_, ?_, hcount, htotal⟩
      · rw [Bool.eq_false_iff.mpr hshown, Bool.false_and, if_neg Bool.false_ne_true, hloop, hkept]
        rfl
      · rw [hkept, contentsOf_dead _ buf hshown, hcontents]

/-- Killing is the list's. -/
theorem kill_spec (h : outbox.Sound) (dead : Notice → Bool) :
    ∃ killed, outbox.kill dead = some killed ∧ killed.Sound ∧ killed.limits = outbox.limits ∧
      killed.contents = outbox.contents.kill dead := by
  obtain ⟨live, liveOctets, hloop, hcontents, hcount, htotal⟩ :=
    killLoop_spec dead h.inside h.live_eq.ge h.octets_eq.ge
  have hlive : live = (outbox.contents.kill dead).length := by
    have := h.live_eq
    unfold Outbox.contents at this ⊢
    omega
  have hoctets : liveOctets = Queue.octets (outbox.contents.kill dead) := by
    have := h.octets_eq
    unfold Outbox.contents at this ⊢
    omega
  have hless := octets_kill_le outbox.contents dead
  have hkilled : ∀ entry : Entry, (entry.killed dead).start = entry.start ∧
      (entry.killed dead).len = entry.len ∧ ((entry.killed dead).live = true → entry.live = true) := by
    intro entry
    unfold Entry.killed
    split_ifs
    · exact ⟨rfl, rfl, fun hshown => hshown.elim⟩
    · exact ⟨rfl, rfl, id⟩
  refine ⟨{ outbox with
    entries := outbox.entries.map (·.killed dead), live := live, liveOctets := liveOctets }, ?_,
    ⟨⟨?_, ?_⟩, ?_, ?_, h.buf_le, ?_, ?_⟩, rfl, hcontents⟩
  · unfold Outbox.kill
    rw [hloop]
    rfl
  · intro entry hentry hshown
    obtain ⟨old, hold, rfl⟩ := List.mem_map.mp hentry
    obtain ⟨hstart, hlen, himp⟩ := hkilled old
    rw [hstart, hlen]
    exact h.inside old hold (himp hshown)
  · refine List.pairwise_map.mpr (h.clear.imp fun {a b} hapart ha hb => ?_)
    obtain ⟨hstartA, hlenA, himpA⟩ := hkilled a
    obtain ⟨hstartB, hlenB, himpB⟩ := hkilled b
    have hposA := ha.2
    have hposB := hb.2
    rw [hlenA] at hposA
    rw [hlenB] at hposB
    rw [hstartA, hlenA, hstartB, hlenB]
    exact hapart ⟨himpA ha.1, hposA⟩ ⟨himpB hb.1, hposB⟩
  · exact hlive.trans (congrArg List.length hcontents).symm
  · exact hoctets.trans (congrArg Queue.octets hcontents).symm
  · show (outbox.entries.map _).length ≤ outbox.limits.entries
    rw [List.length_map]
    exact h.entries_le
  · exact hoctets ▸ hless.trans (h.octets_eq ▸ h.octets_le)

/-! ## Runs -/

inductive OutboxOp where
  | push (notice : Notice) (params : List UInt8)
  | pop
  | kill (dead : Notice → Bool)

inductive OutboxAnswer where
  | pushed (pushed : Pushed)
  | popped (taken : Option (Notice × List UInt8))
  | killed
  deriving DecidableEq

def Outbox.step (outbox : Outbox) : OutboxOp → Option (OutboxAnswer × Outbox)
  | .push notice params => (outbox.push notice params).map fun made => (.pushed made.1, made.2)
  | .pop => outbox.pop.map fun made => (.popped made.1, made.2)
  | .kill dead => (outbox.kill dead).map fun made => (.killed, made)

def Outbox.run (outbox : Outbox) : List OutboxOp → Option (List OutboxAnswer × Outbox)
  | [] => some ([], outbox)
  | op :: ops => do
    let (answer, outbox) ← outbox.step op
    let (answers, outbox) ← outbox.run ops
    some (answer :: answers, outbox)

def Queue.step (limits : OutboxLimits) (queue : Queue) : OutboxOp → OutboxAnswer × Queue
  | .push notice params =>
    (.pushed (queue.push limits notice params).1, (queue.push limits notice params).2)
  | .pop => (.popped queue.pop.1, queue.pop.2)
  | .kill dead => (.killed, queue.kill dead)

def Queue.run (limits : OutboxLimits) (queue : Queue) : List OutboxOp → List OutboxAnswer × Queue
  | [] => ([], queue)
  | op :: ops =>
    let step := queue.step limits op
    let rest := Queue.run limits step.2 ops
    (step.1 :: rest.1, rest.2)

theorem Outbox.sound_new (limits : OutboxLimits) : (new limits).Sound where
  inside := nofun
  clear := List.Pairwise.nil
  live_eq := rfl
  octets_eq := rfl
  buf_le := Nat.zero_le _
  entries_le := Nat.zero_le _
  octets_le := Nat.zero_le _

theorem Outbox.step_spec (h : outbox.Sound) (op : OutboxOp) :
    ∃ stepped, outbox.step op = some ((outbox.contents.step outbox.limits op).1, stepped) ∧
      stepped.Sound ∧ stepped.limits = outbox.limits ∧
      stepped.contents = (outbox.contents.step outbox.limits op).2 := by
  cases op with
  | push notice params =>
    obtain ⟨pushed, hpush, hsound, hlimits, hcontents⟩ := push_spec h notice params
    exact ⟨pushed, by show Option.map _ (outbox.push notice params) = _; rw [hpush]; rfl, hsound, hlimits, hcontents⟩
  | pop =>
    obtain ⟨popped, hpop, hsound, hlimits, hcontents⟩ := pop_spec h
    exact ⟨popped, by show Option.map _ (outbox.pop) = _; rw [hpop]; rfl, hsound, hlimits, hcontents⟩
  | kill dead =>
    obtain ⟨killed, hkill, hsound, hlimits, hcontents⟩ := kill_spec h dead
    exact ⟨killed, by show Option.map _ (outbox.kill dead) = _; rw [hkill]; rfl, hsound, hlimits, hcontents⟩

theorem Outbox.run_spec (h : outbox.Sound) (ops : List OutboxOp) :
    ∃ after, outbox.run ops = some ((outbox.contents.run outbox.limits ops).1, after) ∧
      after.Sound ∧ after.limits = outbox.limits ∧
      after.contents = (outbox.contents.run outbox.limits ops).2 := by
  induction ops generalizing outbox with
  | nil => exact ⟨outbox, rfl, h, rfl, rfl⟩
  | cons op ops ih =>
    obtain ⟨stepped, hstep, hsound, hlimits, hcontents⟩ := step_spec h op
    obtain ⟨after, hrun, hafter, hsame, hlast⟩ := ih hsound
    rw [hcontents, hlimits] at hrun hlast
    refine ⟨after, ?_, hafter, hsame.trans hlimits, hlast⟩
    unfold run
    rw [hstep, Option.bind_eq_bind, Option.bind_some]
    dsimp only
    rw [hrun]
    rfl

/-- Whatever is pushed, taken and killed, the outbox answers as the list of its live notifications
does, no step of it fails, and it stays within its limits. -/
theorem Outbox.refines_queue (limits : OutboxLimits) (ops : List OutboxOp) :
    ∃ outbox, (new limits).run ops = some ((Queue.run limits [] ops).1, outbox) ∧
      outbox.contents = (Queue.run limits [] ops).2 ∧
      outbox.buf.length ≤ limits.octets ∧ outbox.entries.length ≤ limits.entries ∧
      outbox.room = some ⟨limits.entries - outbox.contents.length,
        limits.octets - outbox.contents.octets⟩ := by
  obtain ⟨outbox, hrun, hsound, hlimits, hcontents⟩ := run_spec (sound_new limits) ops
  have hsame : outbox.limits = limits := hlimits
  have hbuf := hsound.buf_le
  have hentries := hsound.entries_le
  have hoctets := hsound.octets_le
  have hlive : outbox.live ≤ outbox.limits.entries := by
    refine le_trans ?_ hentries
    rw [hsound.live_eq]
    exact (liveOf_eq outbox.entries outbox.buf).symm.trans_le List.countP_le_length
  refine ⟨outbox, hrun, hcontents, hsame ▸ hbuf, hsame ▸ hentries, ?_⟩
  unfold room
  rw [checkedSub_eq hlive, checkedSub_eq hoctets, hsound.live_eq, hsound.octets_eq, hsame]
  rfl

end RustyBacnet.Report
