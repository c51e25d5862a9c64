/-
**What stripping the location does to a file.**

Of any file, well formed or not: which bytes `stripImageLocation` may change, when a second run
changes nothing more, and what it returns.  Several blocks are gone through one after another; they
lie apart, so that each is found as it was.

Main result:

* `ImageLocation.strip_anyFile` — all of this.
-/

import Texturion.ImageContainers
import Texturion.XmpLocation

namespace ImageLocation

open InPlace
open JsText (Text ofString trim matchesWord)

/-! ### The blocks of a file, one after another -/

variable {b c : Bytes} {block : TiffBlock} {blocks : List TiffBlock} {contentType : Text}

theorem neutraliseBlocks_cons (block : TiffBlock) (blocks : List TiffBlock)
    (state : Bytes × Bool) :
    neutraliseBlocks (block :: blocks) state =
      neutraliseBlocks blocks ((neutraliseGpsInTiff block state.1).1,
        (neutraliseGpsInTiff block state.1).2 || state.2) := rfl

theorem wiped_neutraliseBlocks (blocks : List TiffBlock) (state : Bytes × Bool) :
    Wiped NoTag state.1 (neutraliseBlocks blocks state).1 := by
  induction blocks generalizing state with
  | nil => exact .refl NoTag state.1
  | cons first blocks ih => exact (wiped_neutralise first state.1).trans (ih _)

/-- Two different blocks of a list lie apart, whichever of them comes first. -/
theorem apart_of_ne {other : TiffBlock} (hapart : blocks.Pairwise TiffBlock.Apart)
    (hblock : block ∈ blocks) (hother : other ∈ blocks) (hne : other ≠ block) :
    block.Apart other := by
  induction blocks with
  | nil => cases hblock
  | cons first blocks ih =>
      obtain ⟨hfirst, hrest⟩ := List.pairwise_cons.1 hapart
      by_cases hfirst' : block = first
      · rw [hfirst'] at hne ⊢
        exact hfirst other ((List.mem_cons.1 hother).resolve_left hne)
      have hblock' := (List.mem_cons.1 hblock).resolve_left hfirst'
      rcases List.mem_cons.1 hother with heq | hother
      · intro p hp hp'
        rw [heq] at hp'
        exact hfirst block hblock' p hp' hp
      · exact ih hrest hblock' hother

theorem within_neutraliseBlocks (blocks : List TiffBlock) (state : Bytes × Bool) (p : ℕ) :
    byte (neutraliseBlocks blocks state).1 p = byte state.1 p ∨
      ∃ block ∈ blocks, block.start + 8 ≤ p ∧ p < block.start + block.length := by
  induction blocks generalizing state with
  | nil => exact .inl rfl
  | cons first blocks ih =>
      rw [neutraliseBlocks_cons]
      rcases ih _ with heq | ⟨block, hblock, hin⟩
      · rcases (within_neutralise first state.1).2 p with heq' | hin
        · exact .inl (heq.trans heq')
        · exact .inr ⟨first, List.mem_cons_self .., hin⟩
      · exact .inr ⟨block, List.mem_cons_of_mem _ hblock, hin⟩

/-- **Blocks that lie apart are neutralised side by side.** -/
theorem neutraliseBlocks_block (hapart : blocks.Pairwise TiffBlock.Apart)
    (hblock : block ∈ blocks) (state : Bytes × Bool) :
    ∃ c : Bytes, c.length = state.1.length ∧ (∀ p, block.Has p → byte c p = byte state.1 p) ∧
      Wiped NoTag (neutraliseGpsInTiff block c).1 (neutraliseBlocks blocks state).1 ∧
      ∀ p, block.Has p →
        byte (neutraliseBlocks blocks state).1 p = byte (neutraliseGpsInTiff block c).1 p := by
  induction blocks generalizing state with
  | nil => cases hblock
  | cons first blocks ih =>
      obtain ⟨hfirst, hrest⟩ := List.pairwise_cons.1 hapart
      rw [neutraliseBlocks_cons]
      rcases List.mem_cons.1 hblock with rfl | hblock
      · refine ⟨state.1, rfl, fun _ _ => rfl, wiped_neutraliseBlocks _ _, fun p hp => ?_⟩
        rcases within_neutraliseBlocks blocks ((neutraliseGpsInTiff block state.1).1,
            (neutraliseGpsInTiff block state.1).2 || state.2) p with heq | ⟨other, hother, hin⟩
        · exact heq
        · exact absurd ⟨by omega, hin.2⟩ (hfirst other hother p hp)
      · obtain ⟨c, hlength, hsame, hwiped, hend⟩ := ih hrest hblock
          ((neutraliseGpsInTiff first state.1).1, (neutraliseGpsInTiff first state.1).2 || state.2)
        refine ⟨c, hlength.trans (within_neutralise first state.1).1, fun p hp => ?_, hwiped, hend⟩
        rcases (within_neutralise first state.1).2 p with heq | hin
        · exact (hsame p hp).trans heq
        · exact absurd hp (hfirst block hblock p ⟨by omega, hin.2⟩)

theorem neutraliseBlocks_false {state : Bytes × Bool}
    (h : (neutraliseBlocks blocks state).2 = false) :
    (neutraliseBlocks blocks state).1 = state.1 ∧ state.2 = false := by
  induction blocks generalizing state with
  | nil => exact ⟨rfl, h⟩
  | cons first blocks ih =>
      rw [neutraliseBlocks_cons] at h ⊢
      obtain ⟨heq, hflag⟩ := ih h
      rw [Bool.or_eq_false_iff] at hflag
      exact ⟨heq.trans (neutralise_false hflag.1), hflag.2⟩

theorem neutralise_short (h : block.length < 8) (b : Bytes) :
    neutraliseGpsInTiff block b = (b, false) := if_pos (.inl h)

theorem end_le_of_has (hlength : 8 ≤ block.length) (h : ∀ p, block.Has p → p < b.length) :
    block.start + block.length ≤ b.length := by
  have hlast := h (block.start + block.length - 1) ⟨by omega, by omega⟩
  omega

theorem neutraliseBlocks_true {state : Bytes × Bool}
    (hfile : ∀ block ∈ blocks, ∀ p, block.Has p → p < state.1.length)
    (hflag : state.2 = false) (h : (neutraliseBlocks blocks state).2 = true)
    (hwiped : Wiped NoTag (neutraliseBlocks blocks state).1 c) : c ≠ state.1 := by
  induction blocks generalizing state with
  | nil =>
      rw [show (neutraliseBlocks [] state).2 = state.2 from rfl, hflag] at h
      cases h
  | cons first blocks ih =>
      rw [neutraliseBlocks_cons] at h hwiped
      by_cases hone : (neutraliseGpsInTiff first state.1).2 = true
      · have hlength : 8 ≤ first.length := by
          by_contra hshort
          rw [neutralise_short (by omega)] at hone
          cases hone
        exact neutralise_true (end_le_of_has hlength (hfile first (List.mem_cons_self ..))) hone
          ((wiped_neutraliseBlocks blocks ((neutraliseGpsInTiff first state.1).1,
            (neutraliseGpsInTiff first state.1).2 || state.2)).trans hwiped)
      · have hsame : (neutraliseGpsInTiff first state.1).1 = state.1 :=
          neutralise_false (by simpa using hone)
        have hstate : ((neutraliseGpsInTiff first state.1).1,
            (neutraliseGpsInTiff first state.1).2 || state.2) = state := by
          rw [hsame, show (neutraliseGpsInTiff first state.1).2 = false by simpa using hone,
            Bool.false_or]
        rw [hstate] at h hwiped
        exact ih (fun block hblock => hfile block (List.mem_cons_of_mem _ hblock)) hflag h hwiped

/-! ### Any file -/

/-- The file after its TIFF blocks were gone through. -/
def withoutGps (b : Bytes) (contentType : Text) : Bytes :=
  (neutraliseBlocks (findTiffBlocks b contentType) (b, false)).1

section

variable (b) (contentType)

theorem stripImageLocation_xmp :
    (stripImageLocation b contentType).1 = (blankXmpLocation (withoutGps b contentType)).1 := by
  rw [stripImageLocation, withoutGps]

theorem stripImageLocation_fst :
    (stripImageLocation b contentType).1 =
      blankAll (xmpValues (withoutGps b contentType)) (withoutGps b contentType) := by
  rw [stripImageLocation, blankXmpLocation_eq]
  rfl

theorem stripImageLocation_snd :
    (stripImageLocation b contentType).2 =
      (!(xmpValues (withoutGps b contentType)).isEmpty ||
        (neutraliseBlocks (findTiffBlocks b contentType) (b, false)).2) := by
  rw [stripImageLocation, blankXmpLocation_eq]
  rfl

theorem length_withoutGps :
    (withoutGps b contentType).length = b.length := (wiped_neutraliseBlocks _ (b, false)).1

theorem length_strip : (stripImageLocation b contentType).1.length = b.length := by
  rw [stripImageLocation_fst, length_blankAll, length_withoutGps]

end

/-- A byte lies in one of the values that the XMP scan finds. -/
def InXmp (b : Bytes) (contentType : Text) (p : ℕ) : Prop :=
  ∃ value ∈ xmpValues (withoutGps b contentType), value.1 ≤ p ∧ p < value.2

theorem byte_strip_of_not_inXmp {p : ℕ} (h : ¬ InXmp b contentType p) :
    byte (stripImageLocation b contentType).1 p = byte (withoutGps b contentType) p := by
  rw [stripImageLocation_fst]
  exact (byte_blankAll _ _ p).resolve_right fun hin => h hin.2

/-- **A byte that changes lies in a TIFF block that was found, or in an XMP value.** -/
theorem strip_frame {p : ℕ} (h : byte (stripImageLocation b contentType).1 p ≠ byte b p) :
    (∃ block ∈ findTiffBlocks b contentType,
        block.start + 8 ≤ p ∧ p < block.start + block.length) ∨ InXmp b contentType p := by
  by_cases hxmp : InXmp b contentType p
  · exact .inr hxmp
  · rw [byte_strip_of_not_inXmp hxmp] at h
    exact .inl ((within_neutraliseBlocks _ (b, false) p).resolve_left h)

theorem wiped_strip (b : Bytes) (contentType : Text) :
    Wiped NoTag (withoutGps b contentType) (stripImageLocation b contentType).1 := by
  refine ⟨(length_strip b contentType).trans (length_withoutGps b contentType).symm, fun p => ?_⟩
  rw [stripImageLocation_fst]
  rcases byte_blankAll (xmpValues (withoutGps b contentType)) (withoutGps b contentType) p with
    h | ⟨h, -⟩
  · exact .inl h
  · rw [h]
    exact .inr noTag_blank

/-- **`true` is returned when a byte was changed or an XMP value found.** -/
theorem strip_returns (b : Bytes) (contentType : Text) :
    (stripImageLocation b contentType).2 = true ↔
      (stripImageLocation b contentType).1 ≠ b ∨ xmpValues (withoutGps b contentType) ≠ [] := by
  rw [stripImageLocation_snd]
  by_cases hxmp : xmpValues (withoutGps b contentType) = []
  · have hsame : (stripImageLocation b contentType).1 = withoutGps b contentType := by
      rw [stripImageLocation_fst, hxmp]
      rfl
    rw [hxmp]
    simp only [List.isEmpty_nil, Bool.not_true, Bool.false_or, ne_eq, not_true_eq_false, or_false]
    constructor
    · intro hflag
      exact neutraliseBlocks_true (fun block hblock p hp => findTiffBlocks_inFile hblock hp) rfl
        hflag (wiped_strip b contentType)
    · intro hne
      by_contra hflag
      refine hne (hsame.trans ?_)
      exact (neutraliseBlocks_false (by simpa using hflag)).1
  · simp [hxmp]

/-- Such a byte stands behind one of the five names, fewer than 264 bytes away. -/
theorem near_of_inXmp {p : ℕ} (h : InXmp b contentType p) :
    ∃ name ∈ attributes, ∃ place, standsAt (withoutGps b contentType) name place = true ∧
      place + name.length < p ∧ p < place + name.length + 264 := by
  obtain ⟨value, hvalue, hin⟩ := h
  obtain ⟨name, hname, place, hat, hbehind⟩ := behind_xmpValues hvalue
  exact ⟨name, hname, place, hat, by omega, by omega⟩

/-! #### A second run -/

/-- No XMP value touches the bytes that decide what is found. -/
def XmpApart (b : Bytes) (contentType : Text) : Prop :=
  ∀ range ∈ structural b contentType, ∀ p, range.1 ≤ p → p < range.2 → ¬ InXmp b contentType p

section

variable (h : XmpApart b contentType)
include h

theorem strip_structural {range : ℕ × ℕ} (hrange : range ∈ findHeads b contentType) :
    SameOn b (stripImageLocation b contentType).1 range.1 range.2 := by
  intro p hp hp'
  by_contra hne
  rcases strip_frame hne with ⟨block, hblock, hin⟩ | hin
  · exact findHeads_apart hrange hblock hp hp' ⟨by omega, hin.2⟩
  · exact h range (List.mem_append_left _ hrange) p hp hp' hin

theorem strip_header (hblock : block ∈ findTiffBlocks b contentType) (hlength : 8 ≤ block.length) :
    SameOn b (stripImageLocation b contentType).1 block.start (block.start + 8) := by
  intro p hp hp'
  by_contra hne
  rcases strip_frame hne with ⟨other, hother, hin⟩ | hin
  · have hhas : block.Has p := ⟨hp, by omega⟩
    by_cases hsame : other = block
    · rw [hsame] at hin
      omega
    · exact apart_of_ne (findTiffBlocks_apart b contentType) hblock hother hsame p hhas
        ⟨by omega, hin.2⟩
  · refine h (block.start, block.start + 8) (List.mem_append_right _ ?_) p hp hp' hin
    exact List.mem_flatMap.2 ⟨block, hblock, List.mem_cons_self ..⟩

theorem findTiffBlocks_strip :
    findTiffBlocks (stripImageLocation b contentType).1 contentType =
      findTiffBlocks b contentType := by
  refine findTiffBlocks_congr (length_strip b contentType) (fun _ => strip_structural h)
    (fun block hblock => strip_header h hblock) fun q hq => ?_
  have hgps : byte (withoutGps b contentType) q = byte b q := by
    refine (within_neutraliseBlocks _ (b, false) q).resolve_right ?_
    rintro ⟨block, hblock, hin⟩
    have hlt := hq block hblock
    omega
  rw [stripImageLocation_fst]
  rcases byte_blankAll (xmpValues (withoutGps b contentType)) (withoutGps b contentType) q with
    heq | ⟨heq, -⟩
  · exact .inl (heq.trans hgps)
  · exact .inr heq

theorem neutralise_strip (hblock : block ∈ findTiffBlocks b contentType) :
    neutraliseGpsInTiff block (stripImageLocation b contentType).1 =
      ((stripImageLocation b contentType).1, false) := by
  by_cases hlength : 8 ≤ block.length
  swap
  · exact neutralise_short (Nat.lt_of_not_le hlength) _
  obtain ⟨c, hc, hsame, hwiped, hend⟩ :=
    neutraliseBlocks_block (findTiffBlocks_apart b contentType) hblock (b, false)
  have hhas : ∀ p, block.start ≤ p → p < block.start + 8 → byte c p = byte b p :=
    fun p hp hp' => hsame p ⟨hp, by omega⟩
  have hread : ∀ little, u32 little c (block.start + 4) = u32 little b (block.start + 4) :=
    fun little => u32_congr fun q hq hq' => hhas q (by omega) (by omega)
  have hlittle : isLittle c block.start = isLittle b block.start := by
    rw [isLittle, isLittle, hhas _ (by omega) (by omega), hhas _ (by omega) (by omega)]
  refine neutralise_again (b := c) ?_ (hwiped.trans (wiped_strip b contentType)) ?_ ?_
  · rw [hc]
    exact end_le_of_has hlength fun p hp => findTiffBlocks_inFile hblock hp
  · intro p hp hp'
    rw [strip_header h hblock hlength p hp hp', hhas p hp hp']
  · rw [hlittle, hread]
    intro hat hroom p hp hp'
    rw [← hend p ⟨by omega, by omega⟩]
    refine byte_strip_of_not_inXmp (h (_, _) (List.mem_append_right _ ?_) p hp hp')
    refine List.mem_flatMap.2 ⟨block, hblock, List.mem_cons_of_mem _ ?_⟩
    rw [if_pos ⟨hat, hroom⟩]
    exact List.mem_singleton_self _

end

theorem neutraliseBlocks_alone (h : ∀ block ∈ blocks, neutraliseGpsInTiff block b = (b, false)) :
    neutraliseBlocks blocks (b, false) = (b, false) := by
  induction blocks with
  | nil => rfl
  | cons first blocks ih =>
      rw [neutraliseBlocks_cons, h first (List.mem_cons_self ..)]
      exact ih fun block hblock => h block (List.mem_cons_of_mem _ hblock)

/-- **A second run changes nothing**, unless the first has blanked a header. -/
theorem strip_again (h : XmpApart b contentType) :
    (stripImageLocation (stripImageLocation b contentType).1 contentType).1 =
      (stripImageLocation b contentType).1 := by
  have hgps : withoutGps (stripImageLocation b contentType).1 contentType =
      (stripImageLocation b contentType).1 := by
    rw [withoutGps, findTiffBlocks_strip h,
      neutraliseBlocks_alone fun block hblock => neutralise_strip h hblock]
  rw [stripImageLocation_xmp _ contentType, hgps, stripImageLocation_xmp, blankXmpLocation_again]

/-! #### All of it -/

/-- **Any file**: what changes is inside a TIFF block that was found or inside an XMP value, a
second run changes nothing more, and `true` means that something was found to change. -/
theorem strip_anyFile (b : Bytes) (contentType : Text) :
    (stripImageLocation b contentType).1.length = b.length ∧
      (∀ p, byte (stripImageLocation b contentType).1 p ≠ byte b p →
        (∃ block ∈ findTiffBlocks b contentType,
            block.start + 8 ≤ p ∧ p < block.start + block.length) ∨
          InXmp b contentType p ∧ ∃ name ∈ attributes, ∃ place,
            standsAt (withoutGps b contentType) name place = true ∧
              place + name.length < p ∧ p < place + name.length + 264) ∧
      (XmpApart b contentType →
        (stripImageLocation (stripImageLocation b contentType).1 contentType).1 =
          (stripImageLocation b contentType).1) ∧
      ((stripImageLocation b contentType).2 = true ↔
        (stripImageLocation b contentType).1 ≠ b ∨ xmpValues (withoutGps b contentType) ≠ []) :=
  ⟨length_strip b contentType,
    fun _ h => (strip_frame h).imp id fun hin => ⟨hin, near_of_inXmp hin⟩,
    strip_again, strip_returns b contentType⟩

/-- The scan of a JPEG, with a name of the XMP text among its pixels. -/
def pixels : Bytes := [0xFF, 0xD8, 0xFF, 0xDA, 0, 2] ++ codes "exif:GPSLatitude='5'" ++ [0xFF, 0xD9]

/-- The value among the pixels is apart from the headers, so a second run leaves the file alone. -/
theorem strip_anyFile_pixels :
    (stripImageLocation (stripImageLocation pixels (ofString "image/jpeg")).1
        (ofString "image/jpeg")).1 = (stripImageLocation pixels (ofString "image/jpeg")).1 := by
  refine (strip_anyFile pixels (ofString "image/jpeg")).2.2.1 ?_
  have hapart : ∀ range ∈ structural pixels (ofString "image/jpeg"),
      ∀ value ∈ xmpValues (withoutGps pixels (ofString "image/jpeg")), range.2 ≤ value.1 := by
    decide +kernel
  rintro range hrange p - hp ⟨value, hvalue, hin, -⟩
  have hle := hapart range hrange value hvalue
  omega

/-- A PNG with a name in front of a chunk of type `IEND`, whose length and type are taken for the
opener and the value behind the name; and an `eXIf` chunk with a GPS directory after that. -/
def ended : Bytes :=
  [0x89, 0x50, 0x4E, 0x47, 0x0D, 0x0A, 0x1A, 0x0A] ++
    [0, 0, 0, 16, 0x74, 0x45, 0x58, 0x74] ++ codes "exif:GPSLatitude" ++ [1, 2, 3, 4] ++
    [0, 0, 0, 0x22, 0x49, 0x45, 0x4E, 0x44] ++ List.replicate 34 0x22 ++ [5, 6, 7, 8] ++
    [0, 0, 0, 26, 0x65, 0x58, 0x49, 0x66] ++
    [0x49, 0x49, 42, 0, 8, 0, 0, 0, 1, 0, 0x25, 0x88, 4, 0, 1, 0, 0, 0, 0, 0, 0, 0, 0, 0, 0, 0]

/-- A byte of the scan changes in a file without any Exif block or XMP text, and a second run
changes more than the first. -/
theorem strip_beyond_packet :
    (findTiffBlocks pixels (ofString "image/jpeg") = [] ∧ 0x3C ∉ pixels ∧
        byte (stripImageLocation pixels (ofString "image/jpeg")).1 24 ≠ byte pixels 24) ∧
      (stripImageLocation (stripImageLocation ended (ofString "image/png")).1
          (ofString "image/png")).1 ≠ (stripImageLocation ended (ofString "image/png")).1 := by
  decide +kernel

end ImageLocation
