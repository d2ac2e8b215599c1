import RustyBacnet.Router.Originated

/-!
# Answers about the routes

An unscoped Who-Is-Router is answered with one I-Am-Router that lists every network beyond the
other ports, and a query for the routing table with Acks of at most 124 entries. Both are written
from the table when they are polled, and measured against the arrival port's limit only then.

1. What is read off an answer's octets is what was written.
2. The Acks follow one another by a cursor, so what they list goes on from where the last ended.
3. A question from a frame is one queued task, and its answer is all that is sent.
-/

namespace RustyBacnet.Router

open BigEndian

/-! ## What an answer lists -/

/-- The networks an I-Am-Router lists, from its octets. -/
def announcedIn (octets : List UInt8) : List UInt16 :=
  ((Npdu.decode octets).toOption.bind fun npdu => (Networks.parse npdu.payload).toOption).elim []
    Networks.iter

/-- The networks an Ack lists with their Port IDs, from its octets. -/
def listedIn (octets : List UInt8) : List (UInt16 × UInt8) :=
  ((Npdu.decode octets).toOption.bind fun npdu =>
    (RoutingEntries.parse npdu.payload).toOption).elim [] fun entries =>
      entries.iter.map fun entry => (entry.network, entry.portId)

def iAmNpdu (networks : List UInt16) : Npdu :=
  .message .iAmRouterToNetwork (networks.flatMap toBytes16)

def ackNpdu (entries : List (UInt16 × UInt8)) : Npdu :=
  .message .initializeRoutingTableAck
    (UInt8.ofNat entries.length :: entries.flatMap RoutingEntries.entryOctets)

theorem decode_message (kind : NetworkMessageType) (payload : List UInt8) :
    Npdu.decode (Npdu.message kind payload).wire = .ok (Npdu.message kind payload).normalised :=
  Npdu.decode_wire (Storage.message_encodable _ _)

variable (networks : List UInt16)

theorem pairs_flatMap : Networks.pairs (networks.flatMap toBytes16) = networks := by
  induction networks with
  | nil => rfl
  | cons network rest ih =>
    rw [List.flatMap_cons]
    show ofBytes16 _ _ :: Networks.pairs (rest.flatMap toBytes16) = _
    rw [ih, ofBytes16_octets]

theorem announcedIn_wire : announcedIn (iAmNpdu networks).wire = networks := by
  have hparse : Networks.parse (networks.flatMap toBytes16) = .ok ⟨networks.flatMap toBytes16⟩ := by
    unfold Networks.parse
    rw [if_pos (by rw [length_flatMap_toBytes16]; omega)]
  unfold announcedIn iAmNpdu
  rw [decode_message]
  show Option.elim (Networks.parse (networks.flatMap toBytes16)).toOption [] Networks.iter = _
  rw [hparse]
  exact pairs_flatMap networks

theorem splitEntry_octets (entry : UInt16 × UInt8) (rest : List UInt8) :
    splitEntry (RoutingEntries.entryOctets entry ++ rest) = some (⟨entry.1, entry.2, []⟩, rest) := by
  show some (RoutingEntry.mk (ofBytes16 _ _) entry.2 _, _) = _
  rw [ofBytes16_octets]
  rfl

theorem skip_entries (entries : List (UInt16 × UInt8)) :
    RoutingEntries.skip entries.length (entries.flatMap RoutingEntries.entryOctets) = some [] := by
  induction entries with
  | nil => rfl
  | cons entry rest ih =>
    rw [List.flatMap_cons, List.length_cons, RoutingEntries.skip, splitEntry_octets]
    exact ih

theorem entriesIn_entries (entries : List (UInt16 × UInt8)) (fuel : ℕ)
    (hfuel : entries.length ≤ fuel) :
    RoutingEntries.entriesIn fuel (entries.flatMap RoutingEntries.entryOctets)
      = entries.map fun entry => ⟨entry.1, entry.2, []⟩ := by
  induction entries generalizing fuel with
  | nil =>
    cases fuel with
    | zero => rfl
    | succ fuel => rfl
  | cons entry rest ih =>
    obtain ⟨fuel, rfl⟩ : ∃ f, fuel = f + 1 := ⟨fuel - 1, by rw [List.length_cons] at hfuel; omega⟩
    rw [List.flatMap_cons, RoutingEntries.entriesIn, splitEntry_octets]
    dsimp only
    rw [ih fuel (by rw [List.length_cons] at hfuel; omega), List.map_cons]

variable {entries : List (UInt16 × UInt8)}

theorem parse_ack (h : entries.length ≤ 255) :
    RoutingEntries.parse (UInt8.ofNat entries.length :: entries.flatMap RoutingEntries.entryOctets)
      = .ok ⟨UInt8.ofNat entries.length, entries.flatMap RoutingEntries.entryOctets⟩ := by
  unfold RoutingEntries.parse
  dsimp only
  rw [UInt8.toNat_ofNat_of_lt' (Nat.lt_succ_of_le h), skip_entries, if_pos rfl]

theorem listedIn_wire (h : entries.length ≤ 255) : listedIn (ackNpdu entries).wire = entries := by
  unfold listedIn ackNpdu
  rw [decode_message]
  show Option.elim (RoutingEntries.parse (UInt8.ofNat entries.length
    :: entries.flatMap RoutingEntries.entryOctets)).toOption [] _ = _
  rw [parse_ack h]
  show (RoutingEntries.entriesIn _ _).map _ = _
  rw [entriesIn_entries entries _ (by rw [length_flatMap_entryOctets]; omega), List.map_map]
  exact List.map_id' entries

theorem iAmNpdu_len : (iAmNpdu networks).encodedLen = 3 + 2 * networks.length := by
  unfold iAmNpdu
  rw [Storage.encodedLen_message, length_flatMap_toBytes16]
  rfl

theorem ackNpdu_len (entries : List (UInt16 × UInt8)) :
    (ackNpdu entries).encodedLen = 4 + 4 * entries.length := by
  unfold ackNpdu
  rw [Storage.encodedLen_message, List.length_cons, length_flatMap_entryOctets]
  show 3 + _ = _
  omega

namespace Storage

variable {R H D B : ℕ} {G : Type} {s t u : Storage R H D B G}

/-! ## The networks beyond the other ports -/

/-- A network is reached through another port, and not marked unreachable. -/
def Beyond (table : Table R H) (port : PortId) (network : UInt16) : Prop :=
  ∃ route, table.lookup network = some route ∧ route.port ≠ port ∧
    route.reachability ≠ .unreachable

variable {table : Table R H}

theorem mem_routes (hs : table.InOrder) (network : UInt16) (route : Route) :
    (network, route) ∈ table.routes ↔ table.lookup network = some route := by
  rw [Table.lookup_eq hs]
  constructor
  · intro h
    obtain ⟨slot, hmem, heq⟩ := List.mem_map.mp h
    cases heq
    rw [hs.entry_of_mem hmem]
    rfl
  · intro h
    obtain ⟨slot, hslot, rfl⟩ := Option.map_eq_some_iff.mp h
    refine List.mem_map.mpr ⟨slot, Table.entry_mem hslot, ?_⟩
    rw [Table.entry_network hslot]

theorem mem_answeredNetworks (hs : s.table.InOrder) (port : PortId) (network : UInt16) :
    network ∈ s.answeredNetworks port ↔ Beyond s.table port network := by
  unfold answeredNetworks Beyond
  rw [List.mem_map]
  constructor
  · rintro ⟨⟨n, route⟩, hmem, rfl⟩
    obtain ⟨hmem, hkeep⟩ := List.mem_filter.mp hmem
    simp only [Bool.and_eq_true, bne_iff_ne] at hkeep
    exact ⟨route, (mem_routes hs n route).mp hmem, hkeep.1, hkeep.2⟩
  · rintro ⟨route, hlookup, hport, hreach⟩
    refine ⟨(network, route), List.mem_filter.mpr ⟨(mem_routes hs _ _).mpr hlookup, ?_⟩, rfl⟩
    simp only [Bool.and_eq_true, bne_iff_ne]
    exact ⟨hport, hreach⟩

theorem taskOutput_iAm (s : Storage R H D B G) (port : PortId) :
    s.taskOutput (.iAmAnswer port none) =
      if s.answeredNetworks port = [] then ⟨s.scratch, none, none⟩
      else s.iAmOutput (.iAmAnswer port none) (s.answeredNetworks port) := by
  unfold taskOutput
  exact if_neg (not_not.mpr rfl)

variable {port : PortId}

/-- The I-Am-Router goes out if it lists a network and fits the port. -/
theorem drains_iAm (hready : Ready s [.iAmAnswer port none])
    (hfit : ∀ octets, s.takes port true octets → octets ≤ s.scratch.length) :
    ∃ sends, Drains s sends ∧
      (s.answeredNetworks port = [] → sends = []) ∧
      (s.answeredNetworks port ≠ [] →
        s.takes port true (iAmNpdu (s.answeredNetworks port)).encodedLen →
        sends = [answerSend port none (.answer .iAmRouterToNetwork)
          (iAmNpdu (s.answeredNetworks port))]) ∧
      (¬s.takes port true (iAmNpdu (s.answeredNetworks port)).encodedLen → sends = []) := by
  have houtput := taskOutput_iAm s port
  by_cases hnone : s.answeredNetworks port = []
  · rw [if_pos hnone] at houtput
    obtain ⟨t, ht, _, hpoll⟩ := ready_nothing hready houtput
    exact ⟨[], .of_poll hpoll ht.drains_nil, fun _ => rfl, fun h => absurd hnone h, fun _ => rfl⟩
  have hwrite : writeMessage s.scratch .iAmRouterToNetwork (Networks.write (s.answeredNetworks port))
      = if (iAmNpdu (s.answeredNetworks port)).encodedLen ≤ s.scratch.length then
          (some (iAmNpdu (s.answeredNetworks port)).encodedLen,
            (iAmNpdu (s.answeredNetworks port)).wire
              ++ s.scratch.drop (iAmNpdu (s.answeredNetworks port)).encodedLen)
        else (none, s.scratch) :=
    writeMessage_eq s.scratch .iAmRouterToNetwork _ fun _ => rfl
  rw [if_neg hnone] at houtput
  unfold iAmOutput at houtput
  rw [hwrite] at houtput
  by_cases hroom : (iAmNpdu (s.answeredNetworks port)).encodedLen ≤ s.scratch.length
  · rw [if_pos hroom] at houtput
    obtain ⟨t, ht, _, htakes, hleft⟩ := ready_output port none hready (message_encodable _ _)
      hroom houtput
    by_cases hport : s.takes port true (iAmNpdu (s.answeredNetworks port)).encodedLen
    · exact ⟨_, .send (htakes hport) ht.drains_nil, fun h => absurd h hnone, fun _ _ => rfl,
        absurd hport⟩
    · exact ⟨[], .of_poll (hleft hport) ht.drains_nil, fun _ => rfl, fun _ h => absurd h hport,
        fun _ => rfl⟩
  · rw [if_neg hroom] at houtput
    obtain ⟨t, ht, _, hpoll⟩ := ready_unwritten hready houtput
    exact ⟨[], .of_poll hpoll ht.drains_nil, fun _ => rfl, fun _ h => absurd (hfit _ h) hroom,
      fun _ => rfl⟩

/-! ## The routes with a wire Port ID -/

theorem wireEntries_eq (table : Table R H) (start : ℕ) :
    wireEntries table start
      = (wireEntries table 0).filter fun entry => decide (start ≤ entry.1.toNat) := by
  unfold wireEntries
  induction table.routes with
  | nil => rfl
  | cons entry rest ih =>
    obtain ⟨network, route⟩ := entry
    rw [List.filter_cons, List.filter_cons, if_pos (show decide (0 ≤ network.toNat) = true from
      decide_eq_true (Nat.zero_le _)), List.filterMap_cons]
    by_cases hstart : start ≤ network.toNat
    · rw [if_pos (by simpa using hstart), List.filterMap_cons, ih]
      cases hid : route.port.wireId with
      | none => simp [hid]
      | some id => simp [hid, hstart]
    · rw [if_neg (by simpa using hstart), ih]
      cases hid : route.port.wireId with
      | none => simp [hid]
      | some id => simp [hid, hstart]

theorem wireEntries_sorted (hs : table.InOrder) (start : ℕ) :
    SortedArray.Sorted (fun entry : UInt16 × UInt8 => entry.1.toNat) (wireEntries table start) := by
  refine List.Pairwise.filterMap _ ?_ ((List.Pairwise.filter _ ?_) :
    ((table.routes.filter _).Pairwise fun a b => a.1.toNat < b.1.toNat))
  · rintro ⟨network, route⟩ ⟨network', route'⟩ hlt entry hentry entry' hentry'
    obtain ⟨id, _, rfl⟩ := Option.map_eq_some_iff.mp hentry
    obtain ⟨id', _, rfl⟩ := Option.map_eq_some_iff.mp hentry'
    exact hlt
  · exact List.pairwise_map.mpr hs

theorem mem_wireEntries (hs : table.InOrder) (network : UInt16) (id : UInt8) :
    (network, id) ∈ wireEntries table 0 ↔
      ∃ route, table.lookup network = some route ∧ route.port.wireId = some id := by
  unfold wireEntries
  rw [List.mem_filterMap]
  constructor
  · rintro ⟨⟨n, route⟩, hmem, heq⟩
    obtain ⟨id', hid, hpair⟩ := Option.map_eq_some_iff.mp heq
    cases hpair
    exact ⟨route, (mem_routes hs _ route).mp (List.mem_filter.mp hmem).1, hid⟩
  · rintro ⟨route, hlookup, hid⟩
    refine ⟨(network, route), List.mem_filter.mpr ⟨(mem_routes hs _ _).mpr hlookup, ?_⟩, ?_⟩
    · exact decide_eq_true (Nat.zero_le _)
    · exact Option.map_eq_some_iff.mpr ⟨id, hid, rfl⟩

/-- The entries from a cursor on are those of one Ack and those from its next cursor on. -/
theorem wireEntries_split (hs : table.InOrder) {start count : ℕ} {last : UInt16 × UInt8}
    (hlast : ((wireEntries table start).take count).getLast? = some last) :
    wireEntries table (last.1.toNat + 1) = (wireEntries table start).drop count := by
  obtain ⟨front, hfront⟩ := List.getLast?_eq_some_iff.mp hlast
  have hall : wireEntries table start = front ++ last :: (wireEntries table start).drop count := by
    rw [List.append_cons, ← hfront, List.take_append_drop]
  have hsorted := wireEntries_sorted hs start
  have hstart := wireEntries_from (List.mem_of_mem_take (List.mem_of_getLast? hlast))
  have hbehind := (hall ▸ hsorted).filter_behind
  rw [← hall] at hbehind
  rw [← hbehind, wireEntries_eq table start, List.filter_filter, wireEntries_eq table (_ + 1)]
  refine List.filter_congr fun entry _ => ?_
  rw [← Bool.decide_and]
  refine decide_eq_decide.mpr ?_
  omega

/-! ## A table answer -/

def ackTask (port : PortId) (dest : Mac) (cursor : ℕ) : Task :=
  { Task.tableAck port dest with cursor := cursor }

def ackChunk (s : Storage R H D B G) (cursor : ℕ) : List (UInt16 × UInt8) :=
  (wireEntries s.table cursor).take ackEntries

def ackNext (s : Storage R H D B G) (cursor : ℕ) : Option ℕ :=
  (s.ackChunk cursor).getLast?.map fun entry => entry.1.toNat + 1

theorem length_ackChunk (s : Storage R H D B G) (cursor : ℕ) :
    (s.ackChunk cursor).length = min 124 (wireEntries s.table cursor).length :=
  List.length_take

theorem taskOutput_ack (s : Storage R H D B G) (port : PortId) (dest : Mac) (cursor : ℕ) :
    s.taskOutput (ackTask port dest cursor) =
      if cursor ≠ 0 ∧ s.ackChunk cursor = [] then ⟨s.scratch, none, none⟩
      else if (ackNpdu (s.ackChunk cursor)).encodedLen ≤ s.scratch.length then
        ⟨(ackNpdu (s.ackChunk cursor)).wire
            ++ s.scratch.drop (ackNpdu (s.ackChunk cursor)).encodedLen,
          some ⟨some (ackNpdu (s.ackChunk cursor)).encodedLen, .answer .initializeRoutingTableAck,
            .ingress, answerTarget port (some dest)⟩, s.ackNext cursor⟩
      else
        ⟨s.scratch, some ⟨none, .answer .initializeRoutingTableAck, .ingress,
          answerTarget port (some dest)⟩, none⟩ := by
  have hwrite : writeMessage s.scratch .initializeRoutingTableAck
        (RoutingEntries.write (s.ackChunk cursor))
      = if (ackNpdu (s.ackChunk cursor)).encodedLen ≤ s.scratch.length then
          (some (ackNpdu (s.ackChunk cursor)).encodedLen, (ackNpdu (s.ackChunk cursor)).wire
            ++ s.scratch.drop (ackNpdu (s.ackChunk cursor)).encodedLen)
        else (none, s.scratch) := by
    refine writeMessage_eq s.scratch .initializeRoutingTableAck _ fun out => ?_
    unfold RoutingEntries.write
    rw [if_neg (by have := s.length_ackChunk cursor; omega)]
  have hlast : (s.ackChunk cursor).getLast?.map Prod.fst = none ↔ s.ackChunk cursor = [] := by
    rw [Option.map_eq_none_iff, List.getLast?_eq_none_iff]
  show s.tableAckOutput (ackTask port dest cursor) = _
  unfold tableAckOutput
  dsimp only
  rw [show (ackTask port dest cursor).cursor = cursor from rfl]
  unfold ackChunk at hwrite hlast
  rw [hwrite]
  unfold ackChunk ackNext
  by_cases hdone : cursor ≠ 0 ∧ (wireEntries s.table cursor).take ackEntries = []
  · rw [if_pos ⟨hdone.1, hlast.mpr hdone.2⟩, if_pos hdone]
  rw [if_neg (fun h => hdone ⟨h.1, hlast.mp h.2⟩), if_neg hdone]
  by_cases hroom : (ackNpdu ((wireEntries s.table cursor).take ackEntries)).encodedLen
      ≤ s.scratch.length
  · rw [if_pos hroom, if_pos hroom, Option.map_map]
    rfl
  · rw [if_neg hroom, if_neg hroom]
    rfl

def ackSend (port : PortId) (dest : Mac) (entries : List (UInt16 × UInt8)) : Send :=
  answerSend port (some dest) (.answer .initializeRoutingTableAck) (ackNpdu entries)

/-- Whether an Ack of this many entries fits the port. -/
def ackFits (s : Storage R H D B G) (port : PortId) (entries : ℕ) : Prop :=
  s.takes port false (4 + 4 * entries)

theorem ackFits_mono {fewer more : ℕ} (h : s.ackFits port more) (hle : fewer ≤ more) :
    s.ackFits port fewer := by
  obtain ⟨config, hconfig, hfits⟩ := h
  exact ⟨config, hconfig, by omega⟩

theorem SameTable.takes (h : SameTable s t) (port : PortId) (broadcast : Bool) (octets : ℕ) :
    t.takes port broadcast octets ↔ s.takes port broadcast octets := by
  unfold Storage.takes portOf
  rw [h.ports]

/-- Sends of a table answer, from a cursor on. -/
structure AckSends (port : PortId) (dest : Mac) (cursor : ℕ) (send : Send) : Prop where
  ack : ∃ entries, entries.length ≤ 124 ∧ send = ackSend port dest entries
  behind : ∀ entry ∈ listedIn send.npdu, cursor ≤ entry.1.toNat

variable {dest : Mac} {cursor next : ℕ}

theorem AckSends.mono {send : Send} (h : AckSends port dest next send) (hle : cursor ≤ next) :
    AckSends port dest cursor send :=
  ⟨h.ack, fun entry hmem => hle.trans (h.behind entry hmem)⟩

theorem ackSends_chunk (s : Storage R H D B G) (port : PortId) (dest : Mac) (cursor : ℕ) :
    AckSends port dest cursor (ackSend port dest (s.ackChunk cursor)) := by
  have hlen := s.length_ackChunk cursor
  refine ⟨⟨_, by omega, rfl⟩, ?_⟩
  show ∀ entry ∈ listedIn (ackNpdu (s.ackChunk cursor)).wire, _
  rw [listedIn_wire (by omega)]
  exact fun entry hmem => wireEntries_from (List.mem_of_mem_take hmem)

/-- What a table answer from a cursor on sends. -/
structure AckRun (s : Storage R H D B G) (port : PortId) (dest : Mac) (cursor : ℕ)
    (sends : List Send) : Prop where
  acks : ∀ send ∈ sends, AckSends port dest cursor send
  whole : s.ackFits port (min 124 (wireEntries s.table cursor).length) →
    sends.flatMap (fun send => listedIn send.npdu) = wireEntries s.table cursor
  lost : ¬s.ackFits port (min 124 (wireEntries s.table cursor).length) →
    ∀ send ∈ sends, ∀ entry ∈ listedIn send.npdu, ∀ first ∈ s.ackChunk cursor,
      first.1.toNat < entry.1.toNat

theorem ackRun_behind {sends : List Send} (hs : s.table.InOrder) (hsame : SameTable s t)
    (hnext : s.ackNext cursor = some next) (h : AckRun t port dest next sends) :
    (∀ send ∈ sends, AckSends port dest cursor send) ∧
      (s.ackFits port (min 124 (wireEntries s.table cursor).length) →
        sends.flatMap (fun send => listedIn send.npdu)
          = (wireEntries s.table cursor).drop ackEntries) ∧
      ∀ send ∈ sends, ∀ entry ∈ listedIn send.npdu, ∀ first ∈ s.ackChunk cursor,
        first.1.toNat < entry.1.toNat := by
  obtain ⟨last, hlast, rfl⟩ := Option.map_eq_some_iff.mp hnext
  have hsplit := wireEntries_split hs hlast
  have hstart := wireEntries_from (List.mem_of_mem_take (List.mem_of_getLast? hlast))
  refine ⟨fun send hmem => (h.acks send hmem).mono (by omega), fun hfits => ?_, ?_⟩
  · have hwhole := h.whole
    rw [hsame.table, hsplit] at hwhole
    refine hwhole ((hsame.takes _ _ _).mpr (ackFits_mono hfits ?_))
    rw [List.length_drop]
    omega
  · intro send hmem entry hentry first hfirst
    have hbehind := (h.acks send hmem).behind entry hentry
    obtain ⟨front, hfront⟩ := List.getLast?_eq_some_iff.mp hlast
    have hsorted : (s.ackChunk cursor).Pairwise fun a b => a.1.toNat < b.1.toNat :=
      (wireEntries_sorted hs cursor).sublist (List.take_sublist _ _)
    rw [hfront] at hsorted hfirst
    rcases List.mem_append.mp hfirst with hfirst | hfirst
    · have := (List.pairwise_append.mp hsorted).2.2 first hfirst last (List.mem_singleton_self _)
      omega
    · obtain rfl := List.mem_singleton.mp hfirst
      omega

/-- A table answer lists the routes from its cursor on, if the largest of its Acks fits. -/
theorem drains_ack (port : PortId) (dest : Mac) (cursor : ℕ) (hs : s.table.InOrder)
    (hready : Ready s [ackTask port dest cursor])
    (hfit : ∀ octets, s.takes port false octets → octets ≤ s.scratch.length) :
    ∃ sends, Drains s sends ∧ AckRun s port dest cursor sends := by
  induction hlen : (wireEntries s.table cursor).length using Nat.strong_induction_on
    generalizing s cursor with
  | h length ih =>
    have houtput := taskOutput_ack s port dest cursor
    have hchunk := s.length_ackChunk cursor
    have hnpdu := ackNpdu_len (s.ackChunk cursor)
    by_cases hdone : cursor ≠ 0 ∧ s.ackChunk cursor = []
    · rw [if_pos hdone] at houtput
      obtain ⟨t, ht, _, hpoll⟩ := ready_nothing hready houtput
      refine ⟨[], .of_poll hpoll ht.drains_nil, by simp, fun _ => ?_, by simp⟩
      rw [hdone.2, List.length_nil] at hchunk
      exact (List.length_eq_zero_iff.mp (by omega)).symm
    rw [if_neg hdone] at houtput
    have hfits : s.ackFits port (min 124 (wireEntries s.table cursor).length)
        ↔ s.takes port (some dest).isNone (ackNpdu (s.ackChunk cursor)).encodedLen := by
      rw [hnpdu, hchunk]
      rfl
    by_cases hroom : (ackNpdu (s.ackChunk cursor)).encodedLen ≤ s.scratch.length
    case neg =>
      rw [if_neg hroom] at houtput
      obtain ⟨t, ht, _, hpoll⟩ := ready_unwritten hready houtput
      exact ⟨[], .of_poll hpoll ht.drains_nil, by simp,
        fun h => absurd (hfit _ (hfits.mp h)) hroom, by simp⟩
    rw [if_pos hroom] at houtput
    obtain ⟨t, ht, hsame, htakes, hleft⟩ := ready_output port (some dest) hready
      (message_encodable _ _) hroom houtput
    have hrest : ∃ rest, Drains t rest ∧ (∀ send ∈ rest, AckSends port dest cursor send) ∧
        (s.ackFits port (min 124 (wireEntries s.table cursor).length) →
          rest.flatMap (fun send => listedIn send.npdu)
            = (wireEntries s.table cursor).drop ackEntries) ∧
        ∀ send ∈ rest, ∀ entry ∈ listedIn send.npdu, ∀ first ∈ s.ackChunk cursor,
          first.1.toNat < entry.1.toNat := by
      cases hnext : s.ackNext cursor with
      | none =>
        rw [hnext] at ht
        refine ⟨[], ht.drains_nil, by simp, fun _ => ?_, by simp⟩
        have hnil : s.ackChunk cursor = [] :=
          List.getLast?_eq_none_iff.mp (Option.map_eq_none_iff.mp hnext)
        rw [hnil, List.length_nil] at hchunk
        rw [List.length_eq_zero_iff.mp (show (wireEntries s.table cursor).length = 0 by omega)]
        rfl
      | some next =>
        rw [hnext] at ht
        have hshort : (wireEntries t.table next).length < length := by
          obtain ⟨last, hlast, rfl⟩ := Option.map_eq_some_iff.mp hnext
          rw [hsame.table, wireEntries_split hs hlast, List.length_drop]
          have hne : 0 < (s.ackChunk cursor).length :=
            List.length_pos_of_mem (List.mem_of_getLast? hlast)
          show (wireEntries s.table cursor).length - 124 < length
          omega
        obtain ⟨rest, hdrains, hrun⟩ := ih _ hshort next (by rw [hsame.table]; exact hs) ht
          (fun octets h => by rw [hsame.room]; exact hfit _ ((hsame.takes _ _ _).mp h)) rfl
        exact ⟨rest, hdrains, ackRun_behind hs hsame hnext hrun⟩
    obtain ⟨rest, hdrains, hacks, hwhole, hlost⟩ := hrest
    by_cases hport : s.takes port (some dest).isNone (ackNpdu (s.ackChunk cursor)).encodedLen
    · refine ⟨_, .send (htakes hport) hdrains, ?_, fun h => ?_, fun h => absurd (hfits.mpr hport) h⟩
      · intro send hmem
        rcases List.mem_cons.mp hmem with rfl | hmem
        · exact ackSends_chunk s port dest cursor
        · exact hacks send hmem
      · rw [List.flatMap_cons, hwhole h]
        show listedIn (ackNpdu (s.ackChunk cursor)).wire ++ _ = _
        rw [listedIn_wire (by omega)]
        exact List.take_append_drop _ _
    · exact ⟨rest, .of_poll (hleft hport) hdrains, hacks,
        fun h => absurd (hfits.mp h) hport, fun _ => hlost⟩

/-! ## A question received -/

/-- The router takes this frame as a message for itself. -/
structure AsksHere (s : Storage R H D B G) (frame : Frame) (config : PortConfig G) (npdu : Npdu) :
    Prop where
  port : s.portOf frame.port = some config
  source : frame.source.length ≤ maxMacLen
  decoded : admitNpdu frame.npdu = .ok npdu
  here : ∀ destination ∈ npdu.destination,
    destination.network = globalNetwork ∨ destination.network = config.network

def arrivalOf (frame : Frame) (config : PortConfig G) (now : Instant) : Arrival :=
  ⟨frame.port, config.network, frame.source, macOrEmpty frame.source, frame.linkGroup, now⟩

variable {config : PortConfig G} {frame : Frame} {npdu : Npdu}

theorem receive_asked [GroupClassifier G] (h : AsksHere s frame config npdu)
    {kind : NetworkMessageType} (htype : npdu.messageType = some kind) (now : Instant)
    (options : Options) (host : Claim → Bool) :
    s.receive frame now options host = (s.dropUndrained.note (.received frame now)).handleMessage
      (arrivalOf frame config now) npdu kind options host := by
  have hport : (s.dropUndrained.note (.received frame now)).portOf frame.port = some config := by
    show s.dropUndrained.ports[_]? = _
    rw [dropUndrained_ports]
    exact h.port
  have helsewhere : elsewhere (arrivalOf frame config now) npdu = none := by
    unfold elsewhere
    rw [Option.filter_eq_none_iff]
    intro destination hmem hother
    simp only [Bool.and_eq_true, bne_iff_ne] at hother
    rcases h.here destination hmem with hglobal | hown
    · exact hother.1 hglobal
    · exact hother.2 hown
  unfold receive
  dsimp only
  rw [hport]
  rw [admitSource_ok h.source]
  rw [h.decoded]
  dsimp only
  unfold dispatch
  rw [htype]
  unfold networkMessage
  rw [show elsewhere ⟨frame.port, config.network, frame.source, macOrEmpty frame.source,
    frame.linkGroup, now⟩ npdu = none from helsewhere]
  rfl

theorem push_table (s : Storage R H D B G) (task : Task) : (s.push task).table = s.table := by
  unfold push debugAssert
  dsimp only
  split_ifs <;> rfl

theorem ready_pushed (s : Storage R H D B G) (frame : Frame) (now : Instant) (task : Task) :
    ∃ t, Ready t [task] ∧ SameTable s t ∧
      ((s.dropUndrained.note (.received frame now)).push task).poll = t.poll := by
  have hsole := sole_dropUndrained s
  have hmore := (drained_iff.mp (drained_dropUndrained s)).2
  have hq := queued_push (s.dropUndrained.note (.received frame now)) task (by
    show s.dropUndrained.out.tasks.length < queueLen
    rw [hsole.tasks]
    decide)
  have htasks : ((s.dropUndrained.note (.received frame now)).push task).out.tasks = [task] := by
    rw [hq.out]
    show s.dropUndrained.out.tasks ++ [task] = _
    rw [hsole.tasks]
    rfl
  obtain ⟨t, ht, hsame, hpoll⟩ := ready_of_spent htasks (hq.quiet.hasMore.trans hmore)
    (by rw [hq.flows]; exact hsole.flows)
  refine ⟨t, ht, SameTable.trans ⟨?_, ?_, ?_⟩ hsame, hpoll⟩
  · rw [hq.ports]
    exact dropUndrained_ports s
  · rw [push_table]
    exact dropUndrained_table s
  · rw [hq.scratch]
    exact congrArg List.length (dropUndrained_scratch s)

/-- I-Am-Router sends that list the networks beyond the other ports. -/
structure RoutesAnnounced (table : Table R H) (port : PortId) (sends : List Send) : Prop where
  each : ∀ send ∈ sends, send.port = port ∧ send.dest = .broadcast ∧
    ∃ npdu, Npdu.decode send.npdu = .ok npdu ∧ npdu.messageType = some .iAmRouterToNetwork
  all : ∀ network, network ∈ sends.flatMap (fun send => announcedIn send.npdu) ↔
    Beyond table port network
  none : (∀ network, ¬Beyond table port network) → sends = []

/-- Acks that list every route with a wire Port ID once, ascending. -/
structure TableListed (table : Table R H) (port : PortId) (dest : List UInt8)
    (sends : List Send) : Prop where
  each : ∀ send ∈ sends, send.port = port ∧ send.dest = .unicast dest ∧
    (listedIn send.npdu).length ≤ 124 ∧
    ∃ npdu, Npdu.decode send.npdu = .ok npdu ∧ npdu.messageType = some .initializeRoutingTableAck
  ascending : (sends.flatMap fun send => listedIn send.npdu).Pairwise fun a b =>
    a.1.toNat < b.1.toNat
  all : ∀ network id, (network, id) ∈ sends.flatMap (fun send => listedIn send.npdu) ↔
    ∃ route, table.lookup network = some route ∧ route.port.wireId = some id

theorem takes_iff (h : s.portOf port = some config) (broadcast : Bool) (octets : ℕ) :
    s.takes port broadcast octets ↔ octets ≤ config.maxNpdu.get broadcast := by
  constructor
  · rintro ⟨other, hother, hle⟩
    rw [h] at hother
    cases hother
    exact hle
  · exact fun hle => ⟨config, h, hle⟩

theorem takes_room (h : Housed s) {broadcast : Bool} {octets : ℕ}
    (htakes : s.takes port broadcast octets) : octets ≤ s.scratch.length := by
  obtain ⟨config, hconfig, hle⟩ := htakes
  exact hle.trans (limitsFit_get (h.limits config (List.mem_of_getElem? hconfig)) broadcast)

/-- A queued I-Am-Router lists every network beyond if it fits. -/
theorem announces_iff (hh : Housed s) (hs : s.table.InOrder) (hport : s.portOf port = some config)
    (hready : Ready s [.iAmAnswer port none]) :
    (∃ sends, Drains s sends ∧ RoutesAnnounced s.table port sends) ↔
      3 + 2 * (s.answeredNetworks port).length ≤ config.maxNpdu.get true := by
  have hmem := mem_answeredNetworks (s := s) hs port
  obtain ⟨sends, hdrains, hnone, hsome, hlost⟩ := drains_iAm hready fun _ => takes_room hh
  rw [takes_iff hport, iAmNpdu_len] at hsome hlost
  constructor
  · rintro ⟨sends', hdrains', hall⟩
    by_contra hlong
    obtain rfl := hdrains.unique hdrains'
    obtain rfl := hlost hlong
    have hnil : s.answeredNetworks port = [] := by
      refine List.eq_nil_iff_forall_not_mem.mpr fun network hin => ?_
      exact absurd ((hall.all network).mpr ((hmem network).mp hin)) List.not_mem_nil
    rw [hnil] at hlong
    refine hlong (le_trans ?_ (limitsFit_least (hh.limits _ (List.mem_of_getElem? hport)) true))
    decide
  · intro hfits
    refine ⟨sends, hdrains, ?_⟩
    by_cases hnil : s.answeredNetworks port = []
    · rw [hnone hnil]
      refine ⟨by simp, fun network => ?_, fun _ => rfl⟩
      rw [← hmem, hnil]
      exact Iff.rfl
    · rw [hsome hnil hfits]
      refine ⟨?_, fun network => ?_, fun hempty => ?_⟩
      · intro send hsend
        obtain rfl := List.mem_singleton.mp hsend
        exact ⟨rfl, rfl, _, decode_message _ _, rfl⟩
      · rw [← hmem, List.flatMap_singleton]
        show network ∈ announcedIn (iAmNpdu _).wire ↔ _
        rw [announcedIn_wire]
      · refine absurd (List.eq_nil_iff_forall_not_mem.mpr fun network hin => ?_) hnil
        exact hempty network ((hmem network).mp hin)

/-- A queued table answer lists every route if the largest of its Acks fits. -/
theorem lists_iff (hh : Housed s) (hs : s.table.InOrder) (hport : s.portOf port = some config)
    (hready : Ready s [.tableAck port dest]) :
    (∃ sends, Drains s sends ∧ TableListed s.table port dest.octets sends) ↔
      4 + 4 * min 124 (wireEntries s.table 0).length ≤ config.maxNpdu.get false := by
  obtain ⟨sends, hdrains, hacks, hwhole, hlost⟩ := drains_ack port dest 0 hs hready
    fun _ => takes_room hh
  unfold ackFits at hwhole hlost
  rw [takes_iff hport] at hwhole hlost
  constructor
  · rintro ⟨sends', hdrains', hall⟩
    by_contra hlong
    obtain rfl := hdrains.unique hdrains'
    cases hfirst : wireEntries s.table 0 with
    | nil =>
      rw [hfirst] at hlong
      refine hlong (le_trans ?_ (limitsFit_least (hh.limits _ (List.mem_of_getElem? hport)) false))
      decide
    | cons first rest =>
      have hin : first ∈ s.ackChunk 0 := by
        unfold ackChunk
        rw [hfirst]
        exact List.mem_cons_self
      have hlisted := (hall.all first.1 first.2).mpr
        ((mem_wireEntries hs first.1 first.2).mp (by rw [hfirst]; exact List.mem_cons_self))
      obtain ⟨send, hsend, hentry⟩ := List.mem_flatMap.mp hlisted
      exact absurd (hlost hlong send hsend _ hentry first hin) (lt_irrefl _)
  · intro hfits
    refine ⟨sends, hdrains, ?_, ?_, ?_⟩
    · intro send hsend
      obtain ⟨⟨entries, hlen, rfl⟩, _⟩ := hacks send hsend
      refine ⟨rfl, rfl, ?_, _, decode_message _ _, rfl⟩
      show (listedIn (ackNpdu entries).wire).length ≤ 124
      rw [listedIn_wire (by omega)]
      exact hlen
    · rw [hwhole hfits]
      exact wireEntries_sorted hs 0
    · intro network id
      rw [hwhole hfits]
      exact mem_wireEntries hs network id

/-- An unscoped Who-Is-Router that is not the router's own come back. -/
structure AsksRoutes (s : Storage R H D B G) (npdu : Npdu) : Prop where
  messageType : npdu.messageType = some .whoIsRouterToNetwork
  payload : npdu.payload = []
  foreign : ∀ source ∈ npdu.source, s.isOwn source = false

/-- A query for the routing table: an Initialize-Routing-Table with a count of 0. -/
structure AsksTable (npdu : Npdu) : Prop where
  messageType : npdu.messageType = some .initializeRoutingTable
  payload : npdu.payload = [0]

theorem receive_asksRoutes [GroupClassifier G] (h : AsksHere s frame config npdu)
    (hasks : AsksRoutes s npdu) (now : Instant) (options : Options) (host : Claim → Bool) :
    (s.receive frame now options host).1
      = (s.dropUndrained.note (.received frame now)).push (.iAmAnswer frame.port none) := by
  have hown : ¬npdu.source.any (s.dropUndrained.note (.received frame now)).isOwn = true := by
    rw [Option.any_eq_true]
    rintro ⟨source, hsource, howns⟩
    have hforeign := hasks.foreign source hsource
    unfold isOwn at hforeign howns
    rw [show (s.dropUndrained.note (.received frame now)).ports = s.ports from
      dropUndrained_ports s, hforeign] at howns
    cases howns
  rw [receive_asked h hasks.messageType]
  unfold handleMessage
  rw [if_pos rfl]
  unfold whoIsRouter droppedAsOwn
  rw [if_neg hown]
  rw [hasks.payload]
  rfl

theorem receive_asksTable [GroupClassifier G] (h : AsksHere s frame config npdu)
    (hasks : AsksTable npdu) (now : Instant) (options : Options) (host : Claim → Bool) :
    (s.receive frame now options host).1 = (s.dropUndrained.note (.received frame now)).push
      (.tableAck frame.port (macOrEmpty frame.source)) := by
  rw [receive_asked h hasks.messageType]
  unfold handleMessage initializeRoutingTable
  rw [hasks.payload]
  rfl

end Storage

namespace Engine

open Storage

variable {R H D B : ℕ} {G : Type}

/-- An unscoped Who-Is-Router draws the networks beyond the other ports just when they fit the
port's broadcast limit in one message, and a query for the routing table draws the whole table just
when the largest of its Acks fits the port's unicast limit. -/
theorem answers_complete [GroupClassifier G] (router : Engine R H D B G)
    (hreach : router.Reachable) (frame : Frame) (config : PortConfig G) (npdu : Npdu)
    (now : Instant) (host : Claim → Bool) (h : AsksHere router.storage frame config npdu) :
    (AsksRoutes router.storage npdu →
      ((∃ sends, Drains (router.step (.receive frame now host)).1.storage sends ∧
          RoutesAnnounced router.storage.table frame.port sends) ↔
        3 + 2 * (router.storage.answeredNetworks frame.port).length
          ≤ config.maxNpdu.get true)) ∧
    (AsksTable npdu →
      ((∃ sends, Drains (router.step (.receive frame now host)).1.storage sends ∧
          TableListed router.storage.table frame.port frame.source sends) ↔
        4 + 4 * min 124 (wireEntries router.storage.table 0).length
          ≤ config.maxNpdu.get false)) := by
  have hasked : AsksHere (router.clocked now) frame config npdu := ⟨h.port, h.source, h.decoded, h.here⟩
  have hhoused : Housed (router.clocked now) := hreach.housed.congr rfl rfl
  have hvalid : (router.clocked now).table.InOrder := hreach.valid.inOrder
  have hmac : (macOrEmpty frame.source).octets = frame.source := macOrEmpty_octets h.source
  have hports : ∀ {t : Storage R H D B G}, SameTable (router.clocked now) t →
      t.portOf frame.port = some config := by
    intro t hsame
    unfold portOf
    rw [hsame.ports]
    exact h.port
  constructor
  · intro hasks
    obtain ⟨t, ht, hsame, hpoll⟩ := ready_pushed (router.clocked now) frame
      (router.clocked now).latest (.iAmAnswer frame.port none)
    have hiff := announces_iff (hhoused.congr hsame.ports hsame.room)
      (by rw [hsame.table]; exact hvalid) (hports hsame) ht
    unfold answeredNetworks at hiff
    rw [hsame.table] at hiff
    have hstep : (router.step (.receive frame now host)).1.storage = _ :=
      receive_asksRoutes hasked ⟨hasks.messageType, hasks.payload, hasks.foreign⟩
        (router.clocked now).latest router.options host
    rw [hstep]
    refine Iff.trans ?_ hiff
    constructor
    · rintro ⟨sends, hdrains, hall⟩
      exact ⟨sends, .of_poll hpoll.symm hdrains, hall⟩
    · rintro ⟨sends, hdrains, hall⟩
      exact ⟨sends, .of_poll hpoll hdrains, hall⟩
  · intro hasks
    obtain ⟨t, ht, hsame, hpoll⟩ := ready_pushed (router.clocked now) frame
      (router.clocked now).latest (.tableAck frame.port (macOrEmpty frame.source))
    have hiff := lists_iff (hhoused.congr hsame.ports hsame.room)
      (by rw [hsame.table]; exact hvalid) (hports hsame) ht
    rw [hsame.table, hmac] at hiff
    have hstep : (router.step (.receive frame now host)).1.storage = _ :=
      receive_asksTable hasked hasks (router.clocked now).latest router.options host
    rw [hstep]
    refine Iff.trans ?_ hiff
    constructor
    · rintro ⟨sends, hdrains, hall⟩
      exact ⟨sends, .of_poll hpoll.symm hdrains, hall⟩
    · rintro ⟨sends, hdrains, hall⟩
      exact ⟨sends, .of_poll hpoll hdrains, hall⟩

def whoIsFrame : Frame := ⟨⟨0⟩, [7], true, [1, 0x80, 0]⟩

def whoIsNpdu : Npdu := { Npdu.message .whoIsRouterToNetwork [] with payloadOffset := 3 }

theorem asked_whoIs {s : Storage R H D B Groups} {config : PortConfig Groups}
    (h : s.portOf ⟨0⟩ = some config) : AsksHere s whoIsFrame config whoIsNpdu :=
  ⟨h, by decide, by decide, nofun⟩

theorem answers_complete_bench :
    ∃ sends, Drains ((bench .standard bench_standard).step
        (.receive whoIsFrame 0 fun _ => true)).1.storage sends ∧
      RoutesAnnounced (bench .standard bench_standard).storage.table ⟨0⟩ sends :=
  ((answers_complete _ (.new (new_bench _ bench_standard)) whoIsFrame _ whoIsNpdu 0
    (fun _ => true) (asked_whoIs rfl)).1 ⟨rfl, rfl, nofun⟩).mpr (by decide +kernel)

/-! ## A table too large for one message -/

theorem new_crowded : (new 40 2 2 4 2 (List.replicate 64 0) benchPorts .standard 0).toOption.isSome
    = true := by decide +kernel

/-- Thirty networks behind the second port, whose own network is one more. -/
def crowded : List Call :=
  (List.range 30).map fun i => .table (.addLearned (UInt16.ofNat (10 + i)) ⟨1⟩ (macOrEmpty [5]) 0)

/-- A router with `benchPorts` and many routes. -/
def crowdedRouter : Engine 40 2 2 4 Groups :=
  ((new 40 2 2 4 2 (List.replicate 64 0) benchPorts .standard 0).toOption.get new_crowded).run
    crowded

theorem reachable_crowded : crowdedRouter.Reachable :=
  (Reachable.new (ok_of_isSome new_crowded)).run crowded

/-- An answer over the port's limit is left out, so the asker hears of no network. -/
theorem long_answer_vanishes :
    crowdedRouter.Reachable ∧
      (∃ config, AsksHere crowdedRouter.storage whoIsFrame config whoIsNpdu) ∧
      AsksRoutes crowdedRouter.storage whoIsNpdu ∧
      ¬∃ sends, Drains (crowdedRouter.step (.receive whoIsFrame 0 fun _ => true)).1.storage sends ∧
        RoutesAnnounced crowdedRouter.storage.table ⟨0⟩ sends := by
  have hport : (crowdedRouter.storage.portOf ⟨0⟩).isSome = true := by decide +kernel
  obtain ⟨config, hconfig⟩ := Option.isSome_iff_exists.mp hport
  refine ⟨reachable_crowded, ⟨config, asked_whoIs hconfig⟩, ⟨rfl, rfl, nofun⟩, ?_⟩
  rintro ⟨sends, hdrains, hall⟩
  have hidle : Drains (crowdedRouter.step (.receive whoIsFrame 0 fun _ => true)).1.storage [] :=
    .idle (by decide +kernel)
  obtain rfl := hidle.unique hdrains
  have hbeyond : Beyond crowdedRouter.storage.table ⟨0⟩ 2 :=
    ⟨.directVia ⟨1⟩, by decide +kernel, by decide, by decide⟩
  exact absurd ((hall.all 2).mpr hbeyond) List.not_mem_nil

end Engine

end RustyBacnet.Router
