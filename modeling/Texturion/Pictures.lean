/-
**A picture without its location.**

A picture is a file laid out around a TIFF block: the segments of a JPEG, the chunks of a PNG or of
a WebP, or the bytes of an HEIC, up to the block and behind it.  The walk of its container comes to
the block, unless a fill byte of a JPEG makes it misread a length or an HEIC has the bytes of a TIFF
header earlier on; then the GPS directory of the block is gone afterwards, and nothing else of it.

Main result:

* `ImageLocation.Picture.strip_plain` — **its location is gone, and nothing else**.
-/

import Texturion.ImageStripped

namespace ImageLocation

open InPlace
open JsText (Text ofString trim matchesWord)

/-! ### Places that a walk reaches -/

/-- The walk goes from a place to another. -/
inductive Reaches (step : ℕ → Option (ℕ × List TiffBlock)) : ℕ → ℕ → Prop
  | here (place : ℕ) : Reaches step place place
  | next {place next place' : ℕ} {found : List TiffBlock} (h : step place = some (next, found))
      (hrest : Reaches step next place') : Reaches step place place'

variable {b : Bytes} {place place' bound : ℕ}
  {step : ℕ → Option (ℕ × List TiffBlock)} {contentType : Text}

/-- **What stands at a place that a walk reaches is found**, with as many repetitions as the file
has bytes. -/
theorem Reaches.mem_walk {next : ℕ} {found : List TiffBlock} (hforward : Forward bound step)
    (h : Reaches step place place')
    (hstep : step place' = some (next, found)) {block : TiffBlock} (hblock : block ∈ found)
    {n : ℕ} (hn : bound ≤ place + n) : block ∈ walk step n place := by
  induction h generalizing n with
  | here place =>
      have hlt := (hforward _ _ _ hstep).2
      obtain ⟨n, rfl⟩ := Nat.exists_eq_add_one_of_ne_zero (show n ≠ 0 by omega)
      rw [walk, hstep]
      exact List.mem_append_left _ hblock
  | next h hrest ih =>
      have hlt := hforward _ _ _ h
      obtain ⟨n, rfl⟩ := Nat.exists_eq_add_one_of_ne_zero (show n ≠ 0 by omega)
      rw [walk, h]
      exact List.mem_append_right _ (ih hstep (by omega))

theorem reaches_parts {α : Type} (step : ℕ → Option (ℕ × List TiffBlock)) (bytes : α → Bytes)
    {parts : List α}
    (hpart : ∀ part ∈ parts, ∀ place, LiesAt b (bytes part) place →
      ∃ found, step place = some (place + (bytes part).length, found))
    (h : LiesAt b (parts.flatMap bytes) place) :
    Reaches step place (place + (parts.flatMap bytes).length) := by
  induction parts generalizing place with
  | nil => exact .here place
  | cons part parts ih =>
      rw [List.flatMap_cons] at h ⊢
      obtain ⟨found, hstep⟩ := hpart part (List.mem_cons_self ..) place h.left
      rw [List.length_append, ← Nat.add_assoc]
      exact .next hstep (ih (fun part hmem => hpart part (List.mem_cons_of_mem _ hmem)) h.right)

/-! ### What stands in front of a block -/

/-- A marker segment of a JPEG in front of the scan, with the fill bytes before its marker. -/
structure Segment where
  fill : ℕ
  marker : UInt8
  payload : Bytes

/-- Four characters. -/
abbrev Name := UInt8 × UInt8 × UInt8 × UInt8

def Name.bytes (name : Name) : Bytes := [name.1, name.2.1, name.2.2.1, name.2.2.2]

/-- A chunk of a PNG. -/
structure Chunk where
  name : Name
  data : Bytes
  crc : Name

/-- A chunk of a RIFF file. -/
structure RiffChunk where
  name : Name
  data : Bytes

def Segment.bytes (segment : Segment) : Bytes :=
  List.replicate segment.fill 0xFF ++ ([0xFF, segment.marker] ++
    (bytes16 false (segment.payload.length + 2) ++ segment.payload))

def Chunk.bytes (chunk : Chunk) : Bytes :=
  bytes32 false chunk.data.length ++ (chunk.name.bytes ++ (chunk.data ++ chunk.crc.bytes))

/-- A chunk is padded to an even length. -/
def RiffChunk.bytes (chunk : RiffChunk) : Bytes :=
  chunk.name.bytes ++ (bytes32 true chunk.data.length ++
    (chunk.data ++ List.replicate (chunk.data.length % 2) 0))

/-- A marker with a length: no fill byte, none of the markers that stand alone, not the start of
the scan. -/
structure Segment.Valid (segment : Segment) : Prop where
  marker : 0x02 ≤ segment.marker.toNat ∧ segment.marker.toNat < 0xFF ∧
    ¬ (0xD0 ≤ segment.marker.toNat ∧ segment.marker.toNat ≤ 0xDA)
  length : segment.payload.length + 2 < 65536

structure Chunk.Valid (chunk : Chunk) : Prop where
  name : chunk.name ≠ endChunk
  length : chunk.data.length < 2 ^ 32

/-- The characters `Exif` with two zero bytes. -/
def exifHeader : Bytes := [0x45, 0x78, 0x69, 0x66, 0x00, 0x00]

/-! ### The steps over them -/

theorem jpegStep_segment {segment : Segment} (hvalid : segment.Valid) (hfill : segment.fill = 0)
    (h : LiesAt b segment.bytes place) :
    jpegStep b place = some (place + segment.bytes.length,
      if segment.marker = 0xE1 ∧ place + 4 + 6 ≤ b.length ∧ isExif b (place + 4) then
        [{ start := place + 4 + 6, length := segment.payload.length + 2 - 2 - 6 }] else []) := by
  obtain ⟨hlow, hhigh, hout⟩ := hvalid.marker
  have hmarker := hvalid.length
  have hlength : segment.bytes.length = 2 + (segment.payload.length + 2) := by
    simp only [Segment.bytes, hfill, List.replicate_zero, List.nil_append, List.length_append,
      length_bytes16, List.length_cons, List.length_nil]
    omega
  have hroom := h.end_le
  rw [Segment.bytes, hfill, List.replicate_zero, List.nil_append] at h
  have hfirst : byte b place = 0xFF := h.byte (i := 0) (by simp)
  have hsecond : byte b (place + 1) = segment.marker := h.byte (i := 1) (by simp)
  have hread : u16 false b (place + 2) = segment.payload.length + 2 := by
    have hat : LiesAt b (bytes16 false (segment.payload.length + 2)) (place + 2) := h.right.left
    rw [u16_bytes16 hat]
    omega
  have hne : ∀ x : UInt8, 0xD0 ≤ x.toNat → x.toNat ≤ 0xDA → segment.marker ≠ x := by
    intro x hx hx' heq
    rw [heq] at hout
    exact hout ⟨hx, hx'⟩
  have halone : ¬ (0xD0 ≤ segment.marker ∧ segment.marker ≤ 0xD9) := by
    rintro ⟨hle, hle'⟩
    rw [UInt8.le_iff_toNat_le] at hle hle'
    exact hout ⟨hle, Nat.le_trans hle' (by decide)⟩
  dsimp only [jpegStep]
  rw [hread, hfirst, hsecond, if_neg (by omega), if_neg (fun hno => hno rfl),
    if_neg (by rintro (heq | heq) <;> exact hne _ (by decide) (by decide) heq), if_neg halone,
    if_neg (by omega), hlength, Nat.add_assoc]

theorem isType_bytes {name name' : Name} (h : LiesAt b name.bytes place) :
    isType b place name' = true ↔ name = name' := by
  have h0 : byte b place = name.1 := h.byte (i := 0) (by simp [Name.bytes])
  have h1 : byte b (place + 1) = name.2.1 := h.byte (i := 1) (by simp [Name.bytes])
  have h2 : byte b (place + 2) = name.2.2.1 := h.byte (i := 2) (by simp [Name.bytes])
  have h3 : byte b (place + 3) = name.2.2.2 := h.byte (i := 3) (by simp [Name.bytes])
  simp only [isType, h0, h1, h2, h3, Bool.and_eq_true, beq_iff_eq, Prod.ext_iff, and_assoc]

theorem pngStep_chunk {chunk : Chunk} (hvalid : chunk.Valid) (h : LiesAt b chunk.bytes place) :
    pngStep b place = some (place + chunk.bytes.length,
      if chunk.name = exifChunk then [{ start := place + 8, length := chunk.data.length }]
      else []) := by
  have hlength : chunk.bytes.length = 8 + chunk.data.length + 4 := by
    simp only [Chunk.bytes, Name.bytes, List.length_append, length_bytes32, List.length_cons,
      List.length_nil]
    omega
  have hroom := h.end_le
  have hread : u32 false b place = chunk.data.length := u32_bytes32 hvalid.length h.left
  have hname : LiesAt b chunk.name.bytes (place + 4) := by
    have hat := h.right.left
    rwa [length_bytes32] at hat
  dsimp only [pngStep]
  rw [hread, if_neg (by omega), if_neg (by omega),
    if_neg (fun hend => hvalid.name ((isType_bytes hname).1 hend)), hlength]
  simp only [isType_bytes hname, Nat.add_assoc]

theorem webpStep_chunk {chunk : RiffChunk} (hvalid : chunk.data.length < 2 ^ 32)
    (h : LiesAt b chunk.bytes place) :
    webpStep b place = some (place + chunk.bytes.length,
      if chunk.name = exifRiffChunk then [{ start := place + 8, length := chunk.data.length }]
      else []) := by
  have hlength : chunk.bytes.length = 8 + chunk.data.length + chunk.data.length % 2 := by
    simp only [RiffChunk.bytes, Name.bytes, List.length_append, length_bytes32, List.length_cons,
      List.length_nil, List.length_replicate]
    omega
  have hroom := h.end_le
  have hread : u32 true b (place + 4) = chunk.data.length := u32_bytes32 hvalid h.right.left
  dsimp only [webpStep]
  rw [hread, if_neg (by omega), if_neg (by omega), hlength]
  simp only [isType_bytes h.left, Nat.add_assoc]

/-! ### Pictures -/

/-- The segment that holds the block: `APP1`. -/
def exifSegment (fill : ℕ) (tiff : Bytes) : Segment :=
  { fill := fill, marker := 0xE1, payload := exifHeader ++ tiff }

def pngSignature : Bytes := [0x89, 0x50, 0x4E, 0x47, 0x0D, 0x0A, 0x1A, 0x0A]

def riffHeader (size : Name) : Bytes := Name.bytes riff ++ (size.bytes ++ Name.bytes webp)

/-- A file with a TIFF block, in one of the four containers.  The block of a JPEG stands in front
of the scan; what comes behind the block is left open. -/
inductive Picture
  | jpeg (before : List Segment) (fill : ℕ) (tiff rest : Bytes)
  | png (before : List Chunk) (tiff : Bytes) (crc : Name) (rest : Bytes)
  | webp (size : Name) (before : List RiffChunk) (tiff rest : Bytes)
  | heic (before tiff rest : Bytes)

namespace Picture

def bytes : Picture → Bytes
  | jpeg before fill tiff rest =>
      [0xFF, 0xD8] ++ (before.flatMap Segment.bytes ++ ((exifSegment fill tiff).bytes ++ rest))
  | png before tiff crc rest =>
      pngSignature ++ (before.flatMap Chunk.bytes ++
        ((Chunk.mk exifChunk tiff crc).bytes ++ rest))
  | webp size before tiff rest =>
      riffHeader size ++ (before.flatMap RiffChunk.bytes ++
        ((RiffChunk.mk exifRiffChunk tiff).bytes ++ rest))
  | heic before tiff rest => before ++ (tiff ++ rest)

def block : Picture → TiffBlock
  | jpeg before fill tiff _ =>
      { start := 2 + (before.flatMap Segment.bytes).length + fill + 10, length := tiff.length }
  | png before tiff _ _ =>
      { start := 8 + (before.flatMap Chunk.bytes).length + 8, length := tiff.length }
  | webp _ before tiff _ =>
      { start := 12 + (before.flatMap RiffChunk.bytes).length + 8, length := tiff.length }
  | heic before tiff _ => { start := before.length, length := tiff.length }

/-- The content types of the container, as they are compared. -/
def types : Picture → List Text
  | jpeg .. => [ofString "IMAGE/JPEG"]
  | png .. => [ofString "IMAGE/PNG"]
  | webp .. => [ofString "IMAGE/WEBP"]
  | heic .. => [ofString "IMAGE/HEIC", ofString "IMAGE/HEIF"]

def Named (picture : Picture) (contentType : Text) : Prop :=
  ∃ type ∈ picture.types, matchesWord type (trim contentType) = true

/-- Lengths and markers in front of the block are what the format allows; the block of an HEIC
starts in the first megabyte. -/
def Valid : Picture → Prop
  | jpeg before _ tiff _ => (∀ segment ∈ before, segment.Valid) ∧ tiff.length + 8 < 65536
  | png before tiff _ _ => (∀ chunk ∈ before, chunk.Valid) ∧ tiff.length < 2 ^ 32
  | webp _ before tiff _ => (∀ chunk ∈ before, chunk.data.length < 2 ^ 32) ∧ tiff.length < 2 ^ 32
  | heic before _ _ => before.length < 1000000

/-- No fill byte stands in front of the marker of the block or of an earlier one; in an HEIC no
earlier place has the bytes of a TIFF header. -/
def Plain : Picture → Prop
  | jpeg before fill _ _ => (∀ segment ∈ before, segment.fill = 0) ∧ fill = 0
  | png .. => True
  | webp .. => True
  | heic before tiff rest =>
      ∀ q < before.length, isCandidate (heic before tiff rest).bytes q = false

variable {picture : Picture}

/-- The walk of the container. -/
def tiffBlocks : Picture → List TiffBlock
  | jpeg before fill tiff rest => jpegTiffBlocks (jpeg before fill tiff rest).bytes
  | png before tiff crc rest => pngTiffBlocks (png before tiff crc rest).bytes
  | webp size before tiff rest => webpTiffBlocks (webp size before tiff rest).bytes
  | heic before tiff rest => heifTiffBlocks (heic before tiff rest).bytes

theorem findTiffBlocks_named (h : picture.Named contentType) :
    findTiffBlocks picture.bytes contentType = picture.tiffBlocks := by
  obtain ⟨type, htype, hmatch⟩ := h
  rw [matchesWord, beq_iff_eq] at hmatch
  simp only [findTiffBlocks, matchesWord, hmatch]
  cases picture with
  | jpeg | png | webp =>
      rw [List.mem_singleton.1 htype]
      rfl
  | heic =>
      rcases List.mem_cons.1 htype with rfl | htype
      · rfl
      · rw [List.mem_singleton.1 htype]
        rfl

variable {tiff : Bytes}

theorem exifSegment_valid (h : tiff.length + 8 < 65536) (fill : ℕ) :
    (exifSegment fill tiff).Valid where
  marker := ⟨by show 2 ≤ 0xE1; omega, by show 0xE1 < 0xFF; omega,
    by show ¬ (0xD0 ≤ 0xE1 ∧ 0xE1 ≤ 0xDA); omega⟩
  length := by
    have hpayload : (exifSegment fill tiff).payload.length = 6 + tiff.length :=
      List.length_append
    omega

theorem isExif_segment {fill : ℕ} (hfill : fill = 0)
    (h : LiesAt b (exifSegment fill tiff).bytes place) : isExif b (place + 4) = true := by
  have hheader : LiesAt b exifHeader (place + 4) := by
    have hat := h.right.right.right
    rw [List.length_replicate, length_bytes16, exifSegment, hfill] at hat
    exact hat.left
  have hbyte : ∀ i < 6, byte b (place + 4 + i) = byte exifHeader i := fun _ hi => hheader.byte hi
  simp only [isExif, Bool.and_eq_true, beq_iff_eq]
  exact ⟨⟨⟨⟨⟨hbyte 0 (by omega), hbyte 1 (by omega)⟩, hbyte 2 (by omega)⟩, hbyte 3 (by omega)⟩,
    hbyte 4 (by omega)⟩, hbyte 5 (by omega)⟩

/-! #### The block is found -/

theorem mem_jpegTiffBlocks {before : List Segment}
    (h : LiesAt b ([0xFF, 0xD8] ++ (before.flatMap Segment.bytes ++ (exifSegment 0 tiff).bytes)) 0)
    (hbefore : ∀ segment ∈ before, segment.Valid ∧ segment.fill = 0)
    (hlength : tiff.length + 8 < 65536) :
    { start := 2 + (before.flatMap Segment.bytes).length + 10, length := tiff.length } ∈
      jpegTiffBlocks b := by
  have hexif := h.right.right
  have hfirst : byte b 0 = 0xFF := h.byte (i := 0) (by simp)
  have hsecond : byte b 1 = 0xD8 := h.byte (i := 1) (by simp)
  have hroom := hexif.end_le
  have hsize : (exifSegment 0 tiff).bytes.length = 10 + tiff.length := by
    simp only [Segment.bytes, exifSegment, exifHeader, List.length_append, List.length_replicate,
      length_bytes16, List.length_cons, List.length_nil]
    omega
  have hstart : ([0xFF, 0xD8] : Bytes).length = 2 := rfl
  rw [hstart] at hexif hroom
  have hreach := reaches_parts (jpegStep b) Segment.bytes (fun segment hmem place hat =>
    ⟨_, jpegStep_segment (hbefore segment hmem).1 (hbefore segment hmem).2 hat⟩) h.right.left
  have hjpeg : ¬ (b.length < 4 ∨ byte b 0 ≠ 0xFF ∨ byte b 1 ≠ 0xD8) := by
    rintro (hlt | hne | hne)
    · omega
    · exact hne hfirst
    · exact hne hsecond
  rw [jpegTiffBlocks, if_neg hjpeg]
  refine hreach.mem_walk (forward_jpegStep b)
    (jpegStep_segment (exifSegment_valid hlength 0) rfl hexif) ?_ (by simp)
  rw [if_pos ⟨rfl, by omega, isExif_segment rfl hexif⟩, List.mem_singleton, TiffBlock.mk.injEq]
  refine ⟨by omega, ?_⟩
  simp only [exifSegment, exifHeader, List.length_append, List.length_cons, List.length_nil]
  omega

theorem mem_pngTiffBlocks {before : List Chunk} {crc : Name}
    (h : LiesAt b (pngSignature ++ (before.flatMap Chunk.bytes ++
      (Chunk.mk exifChunk tiff crc).bytes)) 0) (hbefore : ∀ chunk ∈ before, chunk.Valid)
    (hlength : tiff.length < 2 ^ 32) :
    { start := 8 + (before.flatMap Chunk.bytes).length + 8, length := tiff.length } ∈
      pngTiffBlocks b := by
  have hexif := h.right.right
  have hroom := hexif.end_le
  have hsignature : pngSignature.length = 8 := rfl
  rw [hsignature] at hexif hroom
  have hreach := reaches_parts (pngStep b) Chunk.bytes (fun chunk hmem place hat =>
    ⟨_, pngStep_chunk (hbefore chunk hmem) hat⟩) h.right.left
  have hvalid : (Chunk.mk exifChunk tiff crc).Valid :=
    ⟨show exifChunk ≠ endChunk by decide, hlength⟩
  rw [pngTiffBlocks, if_neg (by omega)]
  refine hreach.mem_walk (forward_pngStep b) (pngStep_chunk hvalid hexif) ?_ (by simp)
  rw [if_pos rfl, List.mem_singleton, TiffBlock.mk.injEq]
  exact ⟨by omega, rfl⟩

theorem mem_webpTiffBlocks {size : Name} {before : List RiffChunk}
    (h : LiesAt b (riffHeader size ++ (before.flatMap RiffChunk.bytes ++
      (RiffChunk.mk exifRiffChunk tiff).bytes)) 0)
    (hbefore : ∀ chunk ∈ before, chunk.data.length < 2 ^ 32) (hlength : tiff.length < 2 ^ 32) :
    { start := 12 + (before.flatMap RiffChunk.bytes).length + 8, length := tiff.length } ∈
      webpTiffBlocks b := by
  have hexif := h.right.right
  have hroom := hexif.end_le
  have hheader : (riffHeader size).length = 12 := rfl
  rw [hheader] at hexif hroom
  have hreach := reaches_parts (webpStep b) RiffChunk.bytes (fun chunk hmem place hat =>
    ⟨_, webpStep_chunk (hbefore chunk hmem) hat⟩) h.right.left
  have hriff : isType b 0 riff = true := (isType_bytes h.left.left).2 rfl
  have hwebp : isType b 8 ImageLocation.webp = true := (isType_bytes h.left.right.right).2 rfl
  rw [webpTiffBlocks, if_neg (by omega), if_pos (by rw [hriff, hwebp]; rfl)]
  refine hreach.mem_walk (forward_webpStep b) (webpStep_chunk hlength hexif) ?_ (by simp)
  rw [if_pos rfl, List.mem_singleton, TiffBlock.mk.injEq]
  exact ⟨by omega, rfl⟩

theorem mem_heifTiffBlocks (hroom : place + 8 < b.length) (hplace : place < 1000000)
    (hcandidate : isCandidate b place = true) (hfirst : ∀ q < place, isCandidate b q = false) :
    { start := place, length := b.length - place } ∈ heifTiffBlocks b := by
  have hfind : (List.range (min (b.length - 8) 1000000)).find? (isCandidate b) = some place := by
    refine List.find?_range_eq_some.2 ⟨hcandidate, List.mem_range.2 (by omega), fun q hq => ?_⟩
    rw [hfirst q hq]
    rfl
  rw [heifTiffBlocks, hfind]
  exact List.mem_singleton_self _

/-- **The block of a plain picture is found**, in an HEIC together with the rest of the file. -/
theorem found (hvalid : picture.Valid) (hplain : picture.Plain)
    (hnamed : picture.Named contentType) (hblock : WellFormed picture.block picture.bytes) :
    ∃ found ∈ findTiffBlocks picture.bytes contentType, found.start = picture.block.start ∧
      picture.block.length ≤ found.length ∧
        found.start + found.length ≤ picture.bytes.length := by
  rw [findTiffBlocks_named hnamed]
  have hfile := hblock.inFile
  cases picture with
  | jpeg before fill tiff rest =>
      obtain ⟨hfills, rfl⟩ := hplain
      have hat := liesAt_zero ([0xFF, 0xD8] ++ (before.flatMap Segment.bytes ++
        (exifSegment 0 tiff).bytes)) rest
      simp only [List.append_assoc] at hat
      have hmem := mem_jpegTiffBlocks hat
        (fun segment hsegment => ⟨hvalid.1 segment hsegment, hfills segment hsegment⟩) hvalid.2
      exact ⟨_, hmem, rfl, Nat.le_refl _, hfile⟩
  | png before tiff crc rest =>
      have hat := liesAt_zero (pngSignature ++ (before.flatMap Chunk.bytes ++
        (Chunk.mk exifChunk tiff crc).bytes)) rest
      simp only [List.append_assoc] at hat
      exact ⟨_, mem_pngTiffBlocks hat hvalid.1 hvalid.2, rfl, Nat.le_refl _, hfile⟩
  | webp size before tiff rest =>
      have hat := liesAt_zero (riffHeader size ++ (before.flatMap RiffChunk.bytes ++
        (RiffChunk.mk exifRiffChunk tiff).bytes)) rest
      simp only [List.append_assoc] at hat
      exact ⟨_, mem_webpTiffBlocks hat hvalid.1 hvalid.2, rfl, Nat.le_refl _, hfile⟩
  | heic before tiff rest =>
      have hcandidate : isCandidate (heic before tiff rest).bytes before.length = true := by
        rw [isCandidate, Bool.and_eq_true, Bool.or_eq_true, beq_iff_eq]
        exact ⟨hblock.mark, hblock.magic⟩
      -- a directory of its own makes the block longer than its header
      have hroom : before.length + 8 < (heic before tiff rest).bytes.length := by
        have hdirectory := hblock.directory
        have hlength : (heic before tiff rest).block.length = tiff.length := rfl
        have hstart : (heic before tiff rest).block.start = before.length := rfl
        omega
      refine ⟨_, mem_heifTiffBlocks hroom hvalid hcandidate hplain, rfl, ?_, ?_⟩
      · exact Nat.le_sub_of_add_le' hfile
      · show before.length + ((heic before tiff rest).bytes.length - before.length) ≤ _
        omega

/-! ### Its location is gone -/

/-- What is left of the block: no byte of the GPS directory or of its values, no entry of the first
directory that points to one, and every other byte, apart from XMP values. -/
structure Stripped (picture : Picture) (contentType : Text) : Prop where
  length : (stripImageLocation picture.bytes contentType).1.length = picture.bytes.length
  gps : ∀ p, InGps picture.block picture.bytes p → ¬ InXmp picture.bytes contentType p →
    byte (stripImageLocation picture.bytes contentType).1 p = 0
  /-- Where an XMP value goes on into the directory there are blanks. -/
  gpsInXmp : ∀ p, InGps picture.block picture.bytes p → InXmp picture.bytes contentType p →
    byte (stripImageLocation picture.bytes contentType).1 p = 0x20
  tags : ∀ i < ifd0Entries picture.block picture.bytes,
    u16 (little' picture.block picture.bytes) (stripImageLocation picture.bytes contentType).1
      (entryPlace picture.block picture.bytes i) ≠ GPS_IFD_POINTER
  other : ∀ p, picture.block.Has p → ¬ InGps picture.block picture.bytes p →
    ¬ InPointer picture.block picture.bytes p → ¬ InXmp picture.bytes contentType p →
      byte (stripImageLocation picture.bytes contentType).1 p = byte picture.bytes p

/-- **The location of a plain picture is gone, and nothing else of its block.** -/
theorem strip_plain (hvalid : picture.Valid) (hplain : picture.Plain)
    (hnamed : picture.Named contentType) (hblock : WellFormed picture.block picture.bytes) :
    picture.Stripped contentType := by
  obtain ⟨⟨start, length⟩, hfound, hstart, hlength, hfile⟩ :=
    found hvalid hplain hnamed hblock
  simp only at hstart hlength hfile
  subst hstart
  -- the blocks are gone through one by one, and this one is as it was when its turn comes
  obtain ⟨c, hc, hsame, hwiped, hend⟩ :=
    neutraliseBlocks_block (findTiffBlocks_apart picture.bytes contentType) hfound
      (picture.bytes, false)
  have hlonger := hblock.longer hlength hfile
  have hsameBlock : SameBlock { start := picture.block.start, length := length } picture.bytes c :=
    ⟨hc, fun p hp hp' => hsame p ⟨hp, hp'⟩⟩
  have hthere := hsameBlock.wellFormed hlonger
  have hgps : ∀ p, InGps picture.block picture.bytes p →
      byte (withoutGps picture.bytes contentType) p = 0 := by
    intro p hp
    have hin := inGps_apart hblock hp
    refine (hend p ⟨by simp only; omega, by simp only; omega⟩).trans ?_
    exact neutralise_gps hthere ((hsameBlock.inGps hlonger p).2 hp)
  refine ⟨length_strip _ _, fun p hp hxmp => ?_, fun p hp hxmp => ?_, fun i hi => ?_,
    fun p hp hgps hpointer hxmp => ?_⟩
  · rw [byte_strip_of_not_inXmp hxmp]
    exact hgps p hp
  · have hin := inGps_apart hblock hp
    have hroom := hblock.inFile
    rw [stripImageLocation_fst]
    exact byte_blankAll_of_mem (by rw [length_withoutGps]; omega) hxmp
  · have htags := neutralise_tags hthere (hwiped.trans (wiped_strip _ _)) (i := i)
    rw [hsameBlock.ifd0Entries hlonger, hsameBlock.little' hlonger,
      hsameBlock.entryPlace hlonger] at htags
    exact htags hi
  · rw [byte_strip_of_not_inXmp hxmp]
    have hin : TiffBlock.Has { start := picture.block.start, length := length } p :=
      ⟨hp.1, by simp only; have hlt := hp.2; omega⟩
    refine (hend p hin).trans ((neutralise_other hthere ?_ ?_).trans (hsame p hin))
    · exact fun hno => hgps ((hsameBlock.inGps hlonger p).1 hno)
    · exact fun hno => hpointer ((hsameBlock.inPointer hlonger p).1 hno)

theorem not_inXmp {p : ℕ} (h : xmpValues (withoutGps b contentType) = []) :
    ¬ InXmp b contentType p := by
  rintro ⟨value, hvalue, -⟩
  rw [h] at hvalue
  cases hvalue

/-- **A block that is not found keeps its location**: the pointer to the GPS directory is there. -/
theorem not_stripped (hblock : WellFormed picture.block picture.bytes) {i : ℕ}
    (hi : IsPointer picture.block picture.bytes i)
    (hapart : ∀ other ∈ findTiffBlocks picture.bytes contentType, picture.block.Apart other)
    (hxmp : xmpValues (withoutGps picture.bytes contentType) = []) :
    ¬ picture.Stripped contentType := by
  intro h
  have hentry := entryPlace_lt hi.1
  have hdirectory := hblock.directory
  have hsame : ∀ p, picture.block.Has p →
      byte (stripImageLocation picture.bytes contentType).1 p = byte picture.bytes p := by
    intro p hp
    by_contra hne
    rcases strip_frame hne with ⟨other, hother, hin⟩ | hin
    · exact hapart other hother p hp ⟨by omega, hin.2⟩
    · exact not_inXmp hxmp hin
  refine h.tags i hi.1 ((u16_congr fun q hq hq' => hsame q ⟨?_, ?_⟩).trans hi.2)
  · omega
  · omega

/-- A TIFF block with an orientation and, in its GPS directory, a latitude of three fractions. -/
def photo : Bytes :=
  [0x49, 0x49, 42, 0, 8, 0, 0, 0, 2, 0, 0x12, 0x01, 3, 0, 1, 0, 0, 0, 6, 0, 0, 0, 0x25, 0x88, 4, 0,
    1, 0, 0, 0, 38, 0, 0, 0, 0, 0, 0, 0, 1, 0, 2, 0, 5, 0, 3, 0, 0, 0, 56, 0, 0, 0, 0, 0, 0, 0] ++
    List.replicate 24 0xAB

theorem strip_plain_photo : (jpeg [] 0 photo [0xFF, 0xD9]).Stripped (ofString " image/jpeg") :=
  strip_plain ⟨nofun, by decide⟩ ⟨nofun, rfl⟩
    ⟨_, List.mem_singleton_self _, by decide +kernel⟩ (by decide +kernel)

/-- One fill byte in front of the marker, or eight bytes that could be a TIFF header in front of
the block of an HEIC, and the latitude stays in the file. -/
theorem latitude_stays :
    (∃ contentType, (jpeg [] 1 photo [0xFF, 0xD9]).Valid ∧
        (jpeg [] 1 photo [0xFF, 0xD9]).Named contentType ∧
        WellFormed (jpeg [] 1 photo [0xFF, 0xD9]).block (jpeg [] 1 photo [0xFF, 0xD9]).bytes ∧
        ¬ (jpeg [] 1 photo [0xFF, 0xD9]).Stripped contentType) ∧
      ∃ contentType, (heic [0x49, 0x49, 42, 0, 0, 0, 0, 0] photo []).Valid ∧
        (heic [0x49, 0x49, 42, 0, 0, 0, 0, 0] photo []).Named contentType ∧
        WellFormed (heic [0x49, 0x49, 42, 0, 0, 0, 0, 0] photo []).block
          (heic [0x49, 0x49, 42, 0, 0, 0, 0, 0] photo []).bytes ∧
        ¬ (heic [0x49, 0x49, 42, 0, 0, 0, 0, 0] photo []).Stripped contentType := by
  refine ⟨⟨ofString "image/jpeg", ⟨nofun, by decide⟩, ⟨_, List.mem_singleton_self _,
      by decide +kernel⟩, by decide +kernel, fun h => ?_⟩,
    ofString "image/heic", show 8 < 1000000 by omega, ⟨_, List.mem_cons_self .., by decide +kernel⟩,
      by decide +kernel, fun h => ?_⟩
  · have hnone : findTiffBlocks (jpeg [] 1 photo [0xFF, 0xD9]).bytes
        (ofString "image/jpeg") = [] := by decide +kernel
    refine not_stripped (i := 1) (by decide +kernel) (by decide +kernel) ?_ (by decide +kernel) h
    rw [hnone]
    exact nofun
  · have hlatitude : InGps (heic [0x49, 0x49, 42, 0, 0, 0, 0, 0] photo []).block
        (heic [0x49, 0x49, 42, 0, 0, 0, 0, 0] photo []).bytes 64 :=
      ⟨1, by decide +kernel, .inr ⟨0, by decide +kernel, by decide +kernel, by decide +kernel⟩⟩
    have hno : xmpValues (withoutGps (heic [0x49, 0x49, 42, 0, 0, 0, 0, 0] photo []).bytes
        (ofString "image/heic")) = [] := by decide +kernel
    have hzero := h.gps 64 hlatitude (not_inXmp hno)
    revert hzero
    decide +kernel

end Picture

end ImageLocation
