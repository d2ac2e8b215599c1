import RustyBacnet.Encoding.TagCodec

/-!
# The frames that are accepted

A grammar of elements (`Elements`), and the walk of `extract_context_value` against it. What a stack
of open tags still demands of the octets is `Unwinds`: the elements left in each frame, its closing
tag, and what the frames around it demand. The walk finds that (`closeContext_sound`), and takes any
elements for what they are (`closeContext_elements`).
-/

namespace RustyBacnet.Encoding

open Slices Fields BigEndian

/-! ## The grammar -/

/-- The octets are the header of this tag. -/
def Header (octets : List UInt8) (tag : Tag) : Prop := decodeTag octets 0 = .ok (tag, octets.length)

/-- An application Boolean, whose header is all of it. -/
def Tag.isBoolean (tag : Tag) : Prop := tag.cls = .application ∧ tag.number = AppTag.boolean

/-- The octets are elements one behind the other, nested at most so deep. -/
inductive Elements : ℕ → List UInt8 → Prop
  | nil (depth : ℕ) : Elements depth []
  | boolean {depth : ℕ} {header rest : List UInt8} {tag : Tag} (hheader : Header header tag)
    (hopening : tag.isOpening = false) (hclosing : tag.isClosing = false) (hboolean : tag.isBoolean)
    (hrest : Elements depth rest) : Elements depth (header ++ rest)
  | primitive {depth : ℕ} {header contents rest : List UInt8} {tag : Tag}
    (hheader : Header header tag) (hopening : tag.isOpening = false)
    (hclosing : tag.isClosing = false) (hboolean : ¬tag.isBoolean)
    (hcontents : contents.length = tag.length) (hrest : Elements depth rest) :
    Elements depth (header ++ contents ++ rest)
  | constructed {depth : ℕ} {opening contents closing rest : List UInt8} {first last : Tag}
    (hfirst : Header opening first) (hopening : first.isOpening = true)
    (hcontents : Elements depth contents) (hlast : Header closing last)
    (hclosing : last.isClosing = true) (hnumber : last.number = first.number)
    (hrest : Elements (depth + 1) rest) :
    Elements (depth + 1) (opening ++ contents ++ closing ++ rest)

variable {tag : Tag}

theorem header_iff {octets : List UInt8} : Header octets tag ↔ tag.Valid ∧ octets = tag.encode := by
  unfold Header
  rw [decodeTag_iff, Nat.zero_add]
  constructor
  · rintro ⟨hvalid, hat, hlength⟩
    exact ⟨hvalid, (hat.eq_of_end hlength.symm).symm⟩
  · rintro ⟨hvalid, rfl⟩
    exact ⟨hvalid, at_zero _, rfl⟩

theorem Elements.append {depth : ℕ} {elements : List UInt8} (h : Elements depth elements) :
    ∀ {others : List UInt8}, Elements depth others → Elements depth (elements ++ others) := by
  induction h with
  | nil => exact fun hothers => hothers
  | boolean hheader hopening hclosing hboolean _ ih =>
    intro others hothers
    rw [List.append_assoc]
    exact .boolean hheader hopening hclosing hboolean (ih hothers)
  | primitive hheader hopening hclosing hboolean hcontents _ ih =>
    intro others hothers
    rw [List.append_assoc]
    exact .primitive hheader hopening hclosing hboolean hcontents (ih hothers)
  | constructed hfirst hopening hcontents hlast hclosing hnumber _ _ ih =>
    intro others hothers
    rw [List.append_assoc]
    exact .constructed hfirst hopening hcontents hlast hclosing hnumber (ih hothers)

variable {next : ℕ}

theorem decodeTag_iff_header {data : List UInt8} {offset : ℕ} :
    decodeTag data offset = .ok (tag, next) ↔
      ∃ header, Header header tag ∧ At data offset header ∧ next = offset + header.length := by
  rw [decodeTag_iff]
  constructor
  · rintro ⟨hvalid, hat, hnext⟩
    exact ⟨tag.encode, header_iff.mpr ⟨hvalid, rfl⟩, hat, hnext⟩
  · rintro ⟨header, hheader, hat, hnext⟩
    obtain ⟨hvalid, rfl⟩ := header_iff.mp hheader
    exact ⟨hvalid, hat, hnext⟩

variable {header : List UInt8}

theorem Header.length_pos (h : Header header tag) : 0 < header.length := by
  obtain ⟨-, rfl⟩ := header_iff.mp h
  exact tag.encode_pos

theorem Header.not_opening (h : Header header tag) (hclosing : tag.isClosing = true) :
    tag.isOpening = false := by
  cases (header_iff.mp h).1 with
  | opening => cases hclosing
  | closing => rfl
  | primitive => rfl

/-! ## What the stack demands -/

/-- The octets complete the frames of these open tags, innermost first, up to the closing tag
`final` of the outermost. -/
inductive Unwinds (final : List UInt8) : List UInt8 → List UInt8 → Prop
  | last {opened : UInt8} {contents : List UInt8} {tag : Tag}
    (hcontents : Elements (maxContextNestingDepth - 1) contents) (hfinal : Header final tag)
    (hclosing : tag.isClosing = true) (hnumber : tag.number = opened) :
    Unwinds final [opened] contents
  | inner {opened : UInt8} {outer contents closing rest : List UInt8} {tag : Tag}
    (houter : outer ≠ [])
    (hcontents : Elements (maxContextNestingDepth - (outer.length + 1)) contents)
    (hheader : Header closing tag) (hclosing : tag.isClosing = true) (hnumber : tag.number = opened)
    (hrest : Unwinds final outer rest) :
    Unwinds final (opened :: outer) (contents ++ closing ++ rest)

variable {final body : List UInt8} {opened : UInt8} {outer : List UInt8}

theorem Unwinds.prepend (h : Unwinds final (opened :: outer) body) {element : List UInt8}
    (hjoin : ∀ contents, Elements (maxContextNestingDepth - (outer.length + 1)) contents →
      Elements (maxContextNestingDepth - (outer.length + 1)) (element ++ contents)) :
    Unwinds final (opened :: outer) (element ++ body) := by
  cases h with
  | last hcontents hfinal hclosing hnumber => exact .last (hjoin _ hcontents) hfinal hclosing hnumber
  | inner houter hcontents hheader hclosing hnumber hrest =>
    rw [← List.append_assoc, ← List.append_assoc]
    exact .inner houter (hjoin _ hcontents) hheader hclosing hnumber hrest

variable {data : List UInt8} {start pos turns valueEnd behind : ℕ} {number : UInt8}

theorem closeContext_succ (hread : decodeTag data pos = .ok (tag, next)) :
    closeContext data start number (turns + 1) (opened :: outer) pos =
      if tag.isOpening then
        if (opened :: outer).length = maxContextNestingDepth then
          .error (.decoding ((DecodeError.new .invalidTag pos
            "context tag nesting depth exceeds maximum (\x7b\x7d)").withValue
              maxContextNestingDepth))
        else closeContext data start number turns (tag.number :: opened :: outer) next
      else if tag.isClosing then
        if tag.number ≠ opened then
          .error (.decoding ((DecodeError.new .invalidTag pos
            "closing tag \x7b\x7d does not match opening tag \x7b\x7d").withValues
              tag.number.toNat opened.toNat))
        else if outer = [] then .ok (pos, next)
        else closeContext data start number turns outer next
      else if tag.cls = .application ∧ tag.number = AppTag.boolean then
        closeContext data start number turns (opened :: outer) next
      else if data.length < next + tag.length then
        .error (.bufferTooShort (next + tag.length) data.length)
      else closeContext data start number turns (opened :: outer) (next + tag.length) := by
  obtain ⟨header, hheader, hat, -⟩ := decodeTag_iff_header.mp hread
  have hbound := hat.bound
  have hpos := hheader.length_pos
  rw [closeContext, if_neg (by omega), hread]

/-- What the walk takes completes the frames. -/
theorem closeContext_sound (hdepth : outer.length + 1 ≤ maxContextNestingDepth)
    (h : closeContext data start number turns (opened :: outer) pos = .ok (valueEnd, behind)) :
    ∃ body final, Unwinds final (opened :: outer) body ∧ At data pos (body ++ final) ∧
      valueEnd = pos + body.length ∧ behind = valueEnd + final.length := by
  induction turns generalizing opened outer pos with
  | zero => cases h
  | succ turns ih =>
    cases hread : decodeTag data pos with
    | error refused =>
      unfold closeContext at h
      rw [hread] at h
      split_ifs at h
    | ok read =>
      obtain ⟨tag, next⟩ := read
      rw [closeContext_succ hread] at h
      obtain ⟨header, hheader, hat, rfl⟩ := decodeTag_iff_header.mp hread
      -- An element, and what the walk takes behind it.
      have hstep : ∀ {element : List UInt8} {from_ : ℕ}, from_ = pos + element.length →
          At data pos element →
          (∀ contents, Elements (maxContextNestingDepth - (outer.length + 1)) contents →
            Elements (maxContextNestingDepth - (outer.length + 1)) (element ++ contents)) →
          closeContext data start number turns (opened :: outer) from_ = .ok (valueEnd, behind) →
          ∃ body final, Unwinds final (opened :: outer) body ∧ At data pos (body ++ final) ∧
            valueEnd = pos + body.length ∧ behind = valueEnd + final.length := by
        rintro element from_ rfl helement hjoin hrest
        obtain ⟨body, final, hunwinds, hbody, rfl, rfl⟩ := ih hdepth hrest
        refine ⟨element ++ body, final, hunwinds.prepend hjoin, ?_, ?_, rfl⟩
        · rw [List.append_assoc]
          exact at_append.mpr ⟨helement, hbody⟩
        · rw [List.length_append, Nat.add_assoc]
      by_cases hopening : tag.isOpening = true
      · -- The frame it opens, and then the one it stands in.
        rw [if_pos hopening] at h
        by_cases hfull : (opened :: outer).length = maxContextNestingDepth
        · rw [if_pos hfull] at h
          cases h
        rw [if_neg hfull] at h
        rw [List.length_cons] at hfull
        obtain ⟨body, final, hunwinds, hbody, rfl, rfl⟩ := ih (by rw [List.length_cons]; omega) h
        cases hunwinds with
        | @inner _ _ contents closing rest last _ hcontents hlast hclosing hnumber hrest =>
          have hdeep : maxContextNestingDepth - (outer.length + 1)
              = maxContextNestingDepth - ((opened :: outer).length + 1) + 1 := by
            rw [List.length_cons]
            omega
          refine ⟨header ++ contents ++ closing ++ rest, final,
            hrest.prepend fun more hmore => ?_, ?_, ?_, rfl⟩
          · rw [hdeep] at hmore ⊢
            exact .constructed hheader hopening hcontents hlast hclosing hnumber hmore
          · rw [List.append_assoc, List.append_assoc, List.append_assoc]
            rw [List.append_assoc, List.append_assoc] at hbody
            exact at_append.mpr ⟨hat, hbody⟩
          · simp only [List.length_append]
            omega
      rw [if_neg hopening] at h
      rw [Bool.not_eq_true] at hopening
      by_cases hclosing : tag.isClosing = true
      · rw [if_pos hclosing] at h
        by_cases hmatch : tag.number ≠ opened
        · rw [if_pos hmatch] at h
          cases h
        rw [if_neg hmatch] at h
        by_cases hlast : outer = []
        · rw [if_pos hlast] at h
          obtain ⟨rfl, rfl⟩ := Prod.mk.inj (Except.ok.inj h)
          subst hlast
          exact ⟨[], header, .last (.nil _) hheader hclosing (not_not.mp hmatch), hat, rfl, rfl⟩
        · rw [if_neg hlast] at h
          obtain ⟨next, further, rfl⟩ := List.exists_cons_of_ne_nil hlast
          rw [List.length_cons] at hdepth
          obtain ⟨body, final, hunwinds, hbody, rfl, rfl⟩ := ih (by omega) h
          refine ⟨[] ++ header ++ body, final,
            .inner hlast (.nil _) hheader hclosing (not_not.mp hmatch) hunwinds, ?_, ?_, rfl⟩
          · rw [List.nil_append, List.append_assoc]
            exact at_append.mpr ⟨hat, hbody⟩
          · rw [List.nil_append, List.length_append, Nat.add_assoc]
      rw [if_neg hclosing] at h
      rw [Bool.not_eq_true] at hclosing
      by_cases hboolean : tag.cls = .application ∧ tag.number = AppTag.boolean
      · rw [if_pos hboolean] at h
        exact hstep rfl hat (fun contents hcontents =>
          .boolean hheader hopening hclosing hboolean hcontents) h
      rw [if_neg hboolean] at h
      by_cases hlong : data.length < pos + header.length + tag.length
      · rw [if_pos hlong] at h
        cases h
      rw [if_neg hlong] at h
      have hcontents := at_slice (Nat.not_lt.mp hlong)
      have hlength := length_slice (Nat.not_lt.mp hlong)
      refine hstep ?_ (at_append.mpr ⟨hat, hcontents⟩) (fun contents hrest =>
        .primitive hheader hopening hclosing hboolean hlength hrest) h
      rw [List.length_append, hlength, Nat.add_assoc]

/-- Elements are taken for what they are, a turn for an octet at most. -/
theorem closeContext_elements {depth : ℕ} {elements : List UInt8} (h : Elements depth elements)
    (hdepth : depth + (outer.length + 1) = maxContextNestingDepth) (hat : At data pos elements) :
    ∃ taken ≤ elements.length, ∀ turns,
      closeContext data start number (turns + taken) (opened :: outer) pos
        = closeContext data start number turns (opened :: outer) (pos + elements.length) := by
  induction h generalizing opened outer pos with
  | nil => exact ⟨0, Nat.le_refl 0, fun turns => rfl⟩
  | @boolean depth header rest tag hheader hopening hclosing hboolean _ ih =>
    obtain ⟨hheaderAt, hrestAt⟩ := at_append.mp hat
    obtain ⟨taken, hle, hrest⟩ := @ih opened outer _ hdepth hrestAt
    have hread := decodeTag_iff_header.mpr ⟨header, hheader, hheaderAt, rfl⟩
    have hpos := hheader.length_pos
    refine ⟨taken + 1, by rw [List.length_append]; omega, fun turns => ?_⟩
    rw [← Nat.add_assoc, closeContext_succ hread, hopening, hclosing, if_neg Bool.false_ne_true,
      if_neg Bool.false_ne_true,
      if_pos (show tag.cls = .application ∧ tag.number = AppTag.boolean from hboolean), hrest,
      List.length_append, Nat.add_assoc]
  | @primitive depth header contents rest tag hheader hopening hclosing hboolean hcontents _ ih =>
    obtain ⟨hbothAt, hrestAt⟩ := at_append.mp hat
    obtain ⟨hheaderAt, hcontentsAt⟩ := at_append.mp hbothAt
    rw [List.length_append] at hrestAt
    obtain ⟨taken, hle, hrest⟩ := @ih opened outer _ hdepth hrestAt
    have hread := decodeTag_iff_header.mpr ⟨header, hheader, hheaderAt, rfl⟩
    have hpos := hheader.length_pos
    have hroom := hcontentsAt.bound
    rw [hcontents] at hroom
    refine ⟨taken + 1, by simp only [List.length_append]; omega, fun turns => ?_⟩
    rw [← Nat.add_assoc, closeContext_succ hread, hopening, hclosing, if_neg Bool.false_ne_true,
      if_neg Bool.false_ne_true,
      if_neg (show ¬(tag.cls = .application ∧ tag.number = AppTag.boolean) from hboolean),
      if_neg (Nat.not_lt.mpr hroom), ← hcontents,
      Nat.add_assoc pos, hrest, List.length_append, List.length_append, Nat.add_assoc pos]
  | @constructed depth opening contents closing rest first last hfirst hopening _ hlast hclosing
      hnumber _ ihContents ihRest =>
    obtain ⟨hframeAt, hrestAt⟩ := at_append.mp hat
    obtain ⟨hbodyAt, hclosingAt⟩ := at_append.mp hframeAt
    obtain ⟨hopeningAt, hcontentsAt⟩ := at_append.mp hbodyAt
    rw [List.length_append] at hclosingAt
    rw [List.length_append, List.length_append] at hrestAt
    have hfits : depth + ((opened :: outer).length + 1) = maxContextNestingDepth := by
      rw [List.length_cons]
      omega
    obtain ⟨inside, hinside, hcontents⟩ := @ihContents first.number (opened :: outer) _ hfits
      hcontentsAt
    obtain ⟨taken, hle, hrest⟩ := @ihRest opened outer _ hdepth hrestAt
    have hreadFirst := decodeTag_iff_header.mpr ⟨opening, hfirst, hopeningAt, rfl⟩
    have hreadLast := decodeTag_iff_header.mpr ⟨closing, hlast, hclosingAt, rfl⟩
    have hposFirst := hfirst.length_pos
    have hposLast := hlast.length_pos
    have hroom : ¬ (opened :: outer).length = maxContextNestingDepth := by
      rw [List.length_cons]
      omega
    refine ⟨taken + 1 + inside + 1, by simp only [List.length_append]; omega, fun turns => ?_⟩
    have hturns : turns + (taken + 1 + inside + 1) = turns + taken + 1 + inside + 1 := by omega
    rw [hturns, closeContext_succ hreadFirst, if_pos hopening, if_neg hroom, hcontents,
      Nat.add_assoc pos, closeContext_succ hreadLast, hlast.not_opening hclosing,
      if_neg Bool.false_ne_true, if_pos hclosing, if_neg (not_not_intro hnumber),
      if_neg (List.cons_ne_nil opened outer), Nat.add_assoc pos, hrest]
    simp only [List.length_append, Nat.add_assoc]

/-! ## The frames -/

/-- What stands at the offset: elements nested at most 31 deep, and the closing tag `number`. -/
def FrameAt (data : List UInt8) (offset : ℕ) (number : UInt8) (content : List UInt8) (behind : ℕ) :
    Prop :=
  ∃ closing, Elements (maxContextNestingDepth - 1) content ∧
    Header closing ⟨number, .context, 0, false, true⟩ ∧ At data offset (content ++ closing) ∧
      behind = offset + content.length + closing.length

theorem Header.closing_eq (h : Header header tag) (hclosing : tag.isClosing = true) :
    tag = ⟨tag.number, .context, 0, false, true⟩ := by
  cases (header_iff.mp h).1 with
  | opening => cases hclosing
  | closing => rfl
  | primitive => cases hclosing

variable {offset : ℕ} {content : List UInt8}

theorem extractContextValue_iff :
    extractContextValue data offset number = .ok (content, behind) ↔
      FrameAt data offset number content behind := by
  unfold extractContextValue
  constructor
  · intro h
    cases hclose : closeContext data offset number (data.length + 1) [number] offset with
    | error refused =>
      rw [hclose] at h
      cases h
    | ok found =>
      obtain ⟨valueEnd, found⟩ := found
      rw [hclose] at h
      obtain ⟨rfl, rfl⟩ := Prod.mk.inj (Except.ok.inj h)
      obtain ⟨body, final, hunwinds, hat, rfl, rfl⟩ := closeContext_sound (by decide) hclose
      rw [Nat.add_sub_cancel_left, (at_append.mp hat).1.slice_eq]
      cases hunwinds with
      | @last _ _ tag hcontents hfinal hclosing hnumber =>
        rw [hfinal.closing_eq hclosing, hnumber] at hfinal
        exact ⟨final, hcontents, hfinal, hat, rfl⟩
      | inner houter => exact absurd rfl houter
  · rintro ⟨closing, hcontent, hclosing, hat, rfl⟩
    obtain ⟨hcontentAt, hclosingAt⟩ := at_append.mp hat
    obtain ⟨taken, hle, hwalk⟩ := @closeContext_elements number [] data offset offset number _ _
      hcontent (by decide) hcontentAt
    have hread := decodeTag_iff_header.mpr ⟨closing, hclosing, hclosingAt, rfl⟩
    have hbound := hcontentAt.bound
    obtain ⟨turns, hturns⟩ : ∃ turns, data.length + 1 = turns + 1 + taken :=
      ⟨data.length - taken, by omega⟩
    rw [hturns, hwalk, closeContext_succ hread, if_neg Bool.false_ne_true, if_pos rfl,
      if_neg (not_not_intro rfl), if_pos rfl]
    dsimp only
    rw [Nat.add_sub_cancel_left, hcontentAt.slice_eq]

/-- The frame is what stands before `behind`, whatever follows. -/
theorem FrameAt.congr {other : List UInt8} (h : FrameAt data offset number content behind)
    (hsame : other.take behind = data.take behind) :
    FrameAt other offset number content behind := by
  obtain ⟨closing, hcontent, hclosing, ⟨before, after, rfl, rfl⟩, rfl⟩ := h
  refine ⟨closing, hcontent, hclosing, ⟨before,
    other.drop (before.length + content.length + closing.length), ?_, rfl⟩, rfl⟩
  have htake : (before ++ (content ++ closing ++ after)).take
      (before.length + content.length + closing.length) = before ++ (content ++ closing) := by
    rw [← List.append_assoc, List.take_append_of_le_length]
    · rw [List.take_of_length_le (by simp only [List.length_append]; omega)]
    · simp only [List.length_append]
      omega
  rw [htake] at hsame
  rw [← List.append_assoc, ← hsame, List.take_append_drop]

/-! ## The accesses

The same walk as the code makes it, with every index and slice taken for itself: `none` is an access
past the end. -/

def readTagNumber (data : List UInt8) (pos : ℕ) (nibble : UInt8) :
    Option (Except Error (UInt8 × ℕ)) :=
  if nibble = 0x0F then
    if data.length ≤ pos then some (.error (.missing pos "truncated extended tag number"))
    else do
      let number ← data[pos]?
      if ¬(15 ≤ number ∧ number ≤ 254) then
        some (.error (headerFault pos "invalid extended tag number \x7b\x7d" number.toNat))
      else some (.ok (number, pos + 1))
  else some (.ok (nibble, pos))

def readTagLength (data : List UInt8) (pos : ℕ) (lvt : UInt8) : Option (Except Error (ℕ × ℕ)) :=
  if lvt < 5 then some (.ok (lvt.toNat, pos))
  else if data.length ≤ pos then some (.error (.missing pos "truncated extended length"))
  else do
    let ext ← data[pos]?
    if ext ≤ 4 then
      some (.error (headerFault pos "non-canonical extended tag length \x7b\x7d" ext.toNat))
    else if ext ≤ 253 then some (.ok (ext.toNat, pos + 1))
    else if ext = 254 then
      if data.length < pos + 1 + 2 then
        some (.error (.missing (pos + 1) "truncated 2-byte extended length"))
      else do
        let high ← data[pos + 1]?
        let low ← data[pos + 2]?
        let length := (ofBytes16 high low).toNat
        if length < 254 then
          some (.error (headerFault (pos + 1)
            "non-canonical 2-byte extended tag length \x7b\x7d" length))
        else some (.ok (length, pos + 3))
    else if data.length < pos + 1 + 4 then
      some (.error (.missing (pos + 1) "truncated 4-byte extended length"))
    else do
      let a ← data[pos + 1]?
      let b ← data[pos + 2]?
      let c ← data[pos + 3]?
      let d ← data[pos + 4]?
      let length := (ofBytes32 a b c d).toNat
      if length < 65536 then
        some (.error (headerFault (pos + 1)
          "non-canonical 4-byte extended tag length \x7b\x7d" length))
      else some (.ok (length, pos + 5))

def readTag (data : List UInt8) (offset : ℕ) : Option (Except Error (Tag × ℕ)) :=
  if data.length ≤ offset then
    some (.error (.missing offset "tag decode: offset beyond buffer length"))
  else do
    let initial ← data[offset]?
    let cls : TagClass := if (initial >>> 3) &&& 0x01 = 1 then .context else .application
    let lvt := initial &&& 0x07
    if cls = .application ∧ 5 < lvt then
      some (.error (.invalidTag offset "reserved application tag L/V/T"))
    else
      match ← readTagNumber data (offset + 1) ((initial >>> 4) &&& 0x0F) with
      | .error refused => some (.error refused)
      | .ok (number, pos) =>
        if cls = .context ∧ lvt = 6 then some (.ok (⟨number, cls, 0, true, false⟩, pos))
        else if cls = .context ∧ lvt = 7 then some (.ok (⟨number, cls, 0, false, true⟩, pos))
        else
          match ← readTagLength data pos lvt with
          | .error refused => some (.error refused)
          | .ok (length, pos) =>
            if maxTagLength < length then
              some (.error (.decoding ((DecodeError.new .overflow offset
                "tag length (\x7b\x7d) exceeds sanity limit (\x7b\x7d)").withValues
                  length maxTagLength)))
            else some (.ok (⟨number, cls, length, false, false⟩, pos))

/-- The walk; one that does not end in these turns is `none` as well. -/
def walkContext (data : List UInt8) (start : ℕ) (tagNumber : UInt8) :
    ℕ → List UInt8 → ℕ → Option (Except Error (List UInt8 × ℕ))
  | 0, _, _ => none
  | _, [], _ => some (.error (unclosed start tagNumber))
  | turns + 1, opened :: outer, pos =>
    if data.length ≤ pos then some (.error (unclosed start tagNumber))
    else do
      match ← readTag data pos with
      | .error refused => some (.error refused)
      | .ok (tag, next) =>
        if tag.isOpening then
          if (opened :: outer).length = maxContextNestingDepth then
            some (.error (.decoding ((DecodeError.new .invalidTag pos
              "context tag nesting depth exceeds maximum (\x7b\x7d)").withValue
                maxContextNestingDepth)))
          else walkContext data start tagNumber turns (tag.number :: opened :: outer) next
        else if tag.isClosing then
          if tag.number ≠ opened then
            some (.error (.decoding ((DecodeError.new .invalidTag pos
              "closing tag \x7b\x7d does not match opening tag \x7b\x7d").withValues
                tag.number.toNat opened.toNat)))
          else if outer = [] then
            if start ≤ pos ∧ pos ≤ data.length then some (.ok (slice data start (pos - start), next))
            else none
          else walkContext data start tagNumber turns outer next
        else if tag.cls = .application ∧ tag.number = AppTag.boolean then
          walkContext data start tagNumber turns (opened :: outer) next
        else if data.length < next + tag.length then
          some (.error (.bufferTooShort (next + tag.length) data.length))
        else walkContext data start tagNumber turns (opened :: outer) (next + tag.length)

def readContextValue (data : List UInt8) (offset : ℕ) (tagNumber : UInt8) :
    Option (Except Error (List UInt8 × ℕ)) :=
  walkContext data offset tagNumber (data.length + 1) [tagNumber] offset

theorem readTagNumber_eq (nibble : UInt8) :
    readTagNumber data pos nibble = some (decodeTagNumber data pos nibble) := by
  unfold readTagNumber decodeTagNumber
  by_cases hnibble : nibble = 0x0F
  · rw [if_pos hnibble, if_pos hnibble]
    by_cases hend : data.length ≤ pos
    · rw [if_pos hend, List.getElem?_eq_none hend]
    · rw [if_neg hend, List.getElem?_eq_getElem (Nat.not_le.mp hend), Option.bind_eq_bind,
        Option.bind_some]
      dsimp only
      split_ifs <;> rfl
  · rw [if_neg hnibble, if_neg hnibble]

theorem readTagLength_eq (lvt : UInt8) :
    readTagLength data pos lvt = some (decodeTagLength data pos lvt) := by
  unfold readTagLength decodeTagLength
  by_cases hshort : lvt < 5
  · rw [if_pos hshort, if_pos hshort]
  rw [if_neg hshort, if_neg hshort]
  by_cases hend : data.length ≤ pos
  · rw [if_pos hend, List.getElem?_eq_none hend]
  rw [if_neg hend, List.getElem?_eq_getElem (Nat.not_le.mp hend), Option.bind_eq_bind,
    Option.bind_some]
  dsimp only
  generalize data[pos] = ext
  by_cases hfew : ext ≤ 4
  · rw [if_pos hfew, if_pos hfew]
  rw [if_neg hfew, if_neg hfew]
  by_cases hone : ext ≤ 253
  · rw [if_pos hone, if_pos hone]
  rw [if_neg hone, if_neg hone]
  by_cases htwo : ext = 254
  · rw [if_pos htwo, if_pos htwo]
    by_cases hcut : data.length < pos + 1 + 2
    · rw [if_pos hcut, List.getElem?_eq_none (show data.length ≤ pos + 2 by omega)]
      cases data[pos + 1]? <;> rfl
    · rw [if_neg hcut, List.getElem?_eq_getElem (show pos + 1 < data.length by omega),
        List.getElem?_eq_getElem (show pos + 2 < data.length by omega)]
      simp only [Option.bind_some]
      split_ifs
      all_goals rfl
  · rw [if_neg htwo, if_neg htwo]
    by_cases hcut : data.length < pos + 1 + 4
    · rw [if_pos hcut, List.getElem?_eq_none (show data.length ≤ pos + 4 by omega)]
      cases data[pos + 1]? <;> cases data[pos + 2]? <;> cases data[pos + 3]? <;> rfl
    · rw [if_neg hcut, List.getElem?_eq_getElem (show pos + 1 < data.length by omega),
        List.getElem?_eq_getElem (show pos + 2 < data.length by omega),
        List.getElem?_eq_getElem (show pos + 3 < data.length by omega),
        List.getElem?_eq_getElem (show pos + 4 < data.length by omega)]
      simp only [Option.bind_some]
      split_ifs <;> rfl

theorem readTag_eq : readTag data pos = some (decodeTag data pos) := by
  unfold readTag decodeTag
  by_cases hend : data.length ≤ pos
  · rw [if_pos hend, List.getElem?_eq_none hend]
  rw [if_neg hend, List.getElem?_eq_getElem (Nat.not_le.mp hend), Option.bind_eq_bind,
    Option.bind_some]
  dsimp only
  generalize data[pos] = initial
  generalize (if (initial >>> 3) &&& 0x01 = 1 then TagClass.context else .application) = cls
  by_cases hreserved : cls = .application ∧ 5 < initial &&& 0x07
  · rw [if_pos hreserved, if_pos hreserved]
  rw [if_neg hreserved, if_neg hreserved, readTagNumber_eq, Option.bind_eq_bind, Option.bind_some]
  cases decodeTagNumber data (pos + 1) (initial >>> 4 &&& 0x0F) with
  | error refused => rfl
  | ok found =>
    obtain ⟨number, behind⟩ := found
    dsimp only
    by_cases hopening : cls = .context ∧ initial &&& 0x07 = 6
    · rw [if_pos hopening, if_pos hopening]
    rw [if_neg hopening, if_neg hopening]
    by_cases hclosing : cls = .context ∧ initial &&& 0x07 = 7
    · rw [if_pos hclosing, if_pos hclosing]
    rw [if_neg hclosing, if_neg hclosing, readTagLength_eq, Option.bind_eq_bind, Option.bind_some]
    cases decodeTagLength data behind (initial &&& 0x07) with
    | error refused => rfl
    | ok found =>
      dsimp only
      split_ifs <;> rfl

/-- Neither is an octet of the frame, and the walk ends in these turns. -/
theorem walkContext_eq (hstart : offset ≤ pos) (hpos : pos ≤ data.length)
    (hturns : data.length < pos + turns) :
    walkContext data offset number turns (opened :: outer) pos =
      some (match closeContext data offset number turns (opened :: outer) pos with
        | .error refused => .error refused
        | .ok (valueEnd, behind) => .ok (slice data offset (valueEnd - offset), behind)) := by
  induction turns generalizing opened outer pos with
  | zero => omega
  | succ turns ih =>
    by_cases hend : data.length ≤ pos
    · unfold walkContext closeContext
      rw [if_pos hend, if_pos hend]
    cases hread : decodeTag data pos with
    | error refused =>
      unfold walkContext closeContext
      rw [if_neg hend, if_neg hend, readTag_eq, hread]
      rfl
    | ok read =>
      obtain ⟨tag, next⟩ := read
      obtain ⟨header, hheader, hat, rfl⟩ := decodeTag_iff_header.mp hread
      have hlength := hheader.length_pos
      have hbound := hat.bound
      rw [closeContext_succ hread, walkContext, if_neg hend, readTag_eq, hread,
        Option.bind_eq_bind, Option.bind_some]
      dsimp only
      by_cases hopening : tag.isOpening = true
      · rw [if_pos hopening, if_pos hopening]
        by_cases hfull : (opened :: outer).length = maxContextNestingDepth
        · rw [if_pos hfull, if_pos hfull]
        · rw [if_neg hfull, if_neg hfull]
          exact ih (by omega) (by omega) (by omega)
      rw [if_neg hopening, if_neg hopening]
      by_cases hclosing : tag.isClosing = true
      · rw [if_pos hclosing, if_pos hclosing]
        by_cases hmatch : tag.number ≠ opened
        · rw [if_pos hmatch, if_pos hmatch]
        rw [if_neg hmatch, if_neg hmatch]
        by_cases hlast : outer = []
        · rw [if_pos hlast, if_pos hlast, if_pos ⟨hstart, Nat.le_of_lt (Nat.not_le.mp hend)⟩]
        · rw [if_neg hlast, if_neg hlast]
          obtain ⟨next, further, rfl⟩ := List.exists_cons_of_ne_nil hlast
          exact ih (by omega) (by omega) (by omega)
      rw [if_neg hclosing, if_neg hclosing]
      by_cases hboolean : tag.cls = .application ∧ tag.number = AppTag.boolean
      · rw [if_pos hboolean, if_pos hboolean]
        exact ih (by omega) (by omega) (by omega)
      rw [if_neg hboolean, if_neg hboolean]
      by_cases hlong : data.length < pos + header.length + tag.length
      · rw [if_pos hlong, if_pos hlong]
      · rw [if_neg hlong, if_neg hlong]
        exact ih (by omega) (by omega) (by omega)

theorem readContextValue_eq :
    readContextValue data offset number = some (extractContextValue data offset number) := by
  unfold readContextValue extractContextValue
  by_cases hend : data.length < offset
  · unfold walkContext closeContext
    rw [if_pos (by omega), if_pos (by omega)]
  · exact walkContext_eq (Nat.le_refl offset) (Nat.not_lt.mp hend) (by omega)

/-- What is accepted is exactly the balanced frames, each in one way, whatever stands behind it, and
nothing is read past the end. -/
theorem balanced_frames_accepted (data : List UInt8) (offset : ℕ) (number : UInt8) :
    (∀ content behind, extractContextValue data offset number = .ok (content, behind) ↔
      FrameAt data offset number content behind) ∧
    (∀ content behind other further, FrameAt data offset number content behind →
      FrameAt data offset number other further → other = content ∧ further = behind) ∧
    (∀ content behind, FrameAt data offset number content behind →
      behind ≤ data.length ∧ ∀ other : List UInt8, other.take behind = data.take behind →
        extractContextValue other offset number = .ok (content, behind)) ∧
    readContextValue data offset number = some (extractContextValue data offset number) := by
  refine ⟨fun content behind => extractContextValue_iff, ?_, ?_, readContextValue_eq⟩
  · intro content behind other further h hother
    have hsame := (extractContextValue_iff.mpr hother).symm.trans (extractContextValue_iff.mpr h)
    exact Prod.mk.inj (Except.ok.inj hsame)
  · intro content behind h
    refine ⟨?_, fun other hsame => extractContextValue_iff.mpr (h.congr hsame)⟩
    obtain ⟨closing, -, -, hat, rfl⟩ := h
    have hbound := hat.bound
    rw [List.length_append] at hbound
    omega

end RustyBacnet.Encoding
