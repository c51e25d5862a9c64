/-
**The location in a picture.**

`location.ts` of the API: before a photo is stored, the position its camera wrote into it is
overwritten where it stands.  A walk of the container finds the TIFF blocks, in each of them the GPS
directory is zeroed and its entry in the first directory is turned into one nobody follows; then the
location values of the XMP text are replaced by blanks.

A loop over a container is a step function with a walk that repeats it; the number of repetitions is
bounded by the length of the file, and `ImageLocation.walk_succ` says that the bound is never
reached.  The reads of a `DataView` throw outside of the file; the blocks found lie inside, and every
read is of a block, so none of them does.  A length below zero is zero here, which fails the same
test.

Main result:

* `ImageLocation.jpegStep_some`, `ImageLocation.pngStep_some`, `ImageLocation.webpStep_some` — the
  block of a step stands between its header and the next place.
-/

import Texturion.InPlace
import Texturion.JsText

namespace ImageLocation

open InPlace
open JsText (Text ofString trim matchesWord)

/-! ### Constants -/

/-- Tag 0x8825 of the first directory: the GPS directory starts there. -/
def GPS_IFD_POINTER : ℕ := 256 * (0x88 : UInt8).toNat + (0x25 : UInt8).toNat

/-- `NEUTRALISED_TAG`, its two bytes. -/
def neutralised : UInt8 × UInt8 := (0xDE, 0xAD)

def ENTRY_SIZE : ℕ := 12

/-- `TYPE_SIZES[fieldType] ?? 0`. -/
def typeSize : ℕ → ℕ
  | 1 => 1
  | 2 => 1
  | 3 => 2
  | 4 => 4
  | 5 => 8
  | 6 => 1
  | 7 => 1
  | 8 => 2
  | 9 => 4
  | 10 => 8
  | 11 => 4
  | 12 => 8
  | _ => 0

/-- A TIFF block of a file: where its byte order mark stands, and how many bytes it has. -/
structure TiffBlock where
  start : ℕ
  length : ℕ
  deriving DecidableEq

/-! ### Walking a container -/

/-- The blocks found by a walk: a step gives the next place and what was found at this one, or
ends the walk. -/
def walk (step : ℕ → Option (ℕ × List TiffBlock)) : ℕ → ℕ → List TiffBlock
  | 0, _ => []
  | n + 1, place =>
      match step place with
      | none => []
      | some (next, found) => found ++ walk step n next

/-- The characters `Exif` with two zero bytes. -/
def isExif (b : Bytes) (payload : ℕ) : Bool :=
  byte b payload == 0x45 && byte b (payload + 1) == 0x78 && byte b (payload + 2) == 0x69 &&
    byte b (payload + 3) == 0x66 && byte b (payload + 4) == 0x00 && byte b (payload + 5) == 0x00

def jpegStep (b : Bytes) (place : ℕ) : Option (ℕ × List TiffBlock) :=
  if b.length < place + 4 then none
  else if byte b place ≠ 0xFF then none
  else
    let marker := byte b (place + 1)
    -- the scan, or the end: what follows is pixels
    if marker = 0xDA ∨ marker = 0xD9 then none
    else if 0xD0 ≤ marker ∧ marker ≤ 0xD9 then some (place + 2, [])
    else
      let length := u16 false b (place + 2)
      if length < 2 ∨ b.length < place + 2 + length then none
      else
        some (place + 2 + length,
          if marker = 0xE1 ∧ place + 4 + 6 ≤ b.length ∧ isExif b (place + 4) then
            [{ start := place + 4 + 6, length := length - 2 - 6 }]
          else [])

def jpegTiffBlocks (b : Bytes) : List TiffBlock :=
  if b.length < 4 ∨ byte b 0 ≠ 0xFF ∨ byte b 1 ≠ 0xD8 then []
  else walk (jpegStep b) b.length 2

/-- `String.fromCharCode` of four bytes, compared with the codes of a name. -/
def isType (b : Bytes) (place : ℕ) (name : UInt8 × UInt8 × UInt8 × UInt8) : Bool :=
  byte b place == name.1 && byte b (place + 1) == name.2.1 && byte b (place + 2) == name.2.2.1 &&
    byte b (place + 3) == name.2.2.2

/-- `eXIf`. -/
def exifChunk : UInt8 × UInt8 × UInt8 × UInt8 := (0x65, 0x58, 0x49, 0x66)

/-- `IEND`. -/
def endChunk : UInt8 × UInt8 × UInt8 × UInt8 := (0x49, 0x45, 0x4E, 0x44)

def riff : UInt8 × UInt8 × UInt8 × UInt8 := (0x52, 0x49, 0x46, 0x46)

def webp : UInt8 × UInt8 × UInt8 × UInt8 := (0x57, 0x45, 0x42, 0x50)

/-- `EXIF`. -/
def exifRiffChunk : UInt8 × UInt8 × UInt8 × UInt8 := (0x45, 0x58, 0x49, 0x46)

def pngStep (b : Bytes) (place : ℕ) : Option (ℕ × List TiffBlock) :=
  if b.length < place + 8 then none
  else
    let length := u32 false b place
    if b.length < place + 8 + length then none
    else if isType b (place + 4) endChunk then none
    else
      some (place + 8 + length + 4,
        if isType b (place + 4) exifChunk then [{ start := place + 8, length := length }] else [])

def pngTiffBlocks (b : Bytes) : List TiffBlock :=
  if b.length < 8 then [] else walk (pngStep b) b.length 8

def webpStep (b : Bytes) (place : ℕ) : Option (ℕ × List TiffBlock) :=
  if b.length < place + 8 then none
  else
    let length := u32 true b (place + 4)
    if b.length < place + 8 + length then none
    else
      some (place + 8 + length + length % 2,
        if isType b place exifRiffChunk then [{ start := place + 8, length := length }] else [])

def webpTiffBlocks (b : Bytes) : List TiffBlock :=
  if b.length < 12 then []
  else if isType b 0 riff && isType b 8 webp then walk (webpStep b) b.length 12
  else []

def isLittle (b : Bytes) (place : ℕ) : Bool := byte b place == 0x49 && byte b (place + 1) == 0x49

def isBig (b : Bytes) (place : ℕ) : Bool := byte b place == 0x4D && byte b (place + 1) == 0x4D

/-- A byte order mark with the number 42 behind it. -/
def isCandidate (b : Bytes) (place : ℕ) : Bool :=
  (isLittle b place || isBig b place) && u16 (isLittle b place) b (place + 2) == 42

/-- The first candidate of the first megabyte; the scan stops there. -/
def heifTiffBlocks (b : Bytes) : List TiffBlock :=
  match (List.range (min (b.length - 8) 1000000)).find? (isCandidate b) with
  | none => []
  | some place => [{ start := place, length := b.length - place }]

/-- The content types are compared after `trim` and `toLowerCase`. -/
def findTiffBlocks (b : Bytes) (contentType : Text) : List TiffBlock :=
  let type := trim contentType
  if matchesWord (ofString "IMAGE/JPEG") type then jpegTiffBlocks b
  else if matchesWord (ofString "IMAGE/PNG") type then pngTiffBlocks b
  else if matchesWord (ofString "IMAGE/WEBP") type then webpTiffBlocks b
  else if matchesWord (ofString "IMAGE/HEIC") type || matchesWord (ofString "IMAGE/HEIF") type then
    heifTiffBlocks b
  else []

/-! ### One TIFF block -/

def valueSize (little : Bool) (b : Bytes) (entry : ℕ) : ℕ :=
  typeSize (u16 little b (entry + 2)) * u32 little b (entry + 4)

/-- The loop of `zeroDirectory` for one entry: its value, if it does not stand in the entry. -/
def zeroValue (little : Bool) (block : TiffBlock) (directoryAt : ℕ) (b : Bytes) (i : ℕ) : Bytes :=
  let entry := block.start + directoryAt + 2 + i * ENTRY_SIZE
  let size := valueSize little b entry
  let valueAt := u32 little b (entry + 8)
  if 4 < size ∧ 8 ≤ valueAt ∧ valueAt + size ≤ block.length then
    fill 0 (block.start + valueAt) (block.start + valueAt + size) b
  else b

def zeroDirectory (little : Bool) (block : TiffBlock) (directoryAt : ℕ) (b : Bytes) :
    Bytes × Bool :=
  let entries := u16 little b (block.start + directoryAt)
  let tableEnd := directoryAt + 2 + entries * ENTRY_SIZE
  if block.length < tableEnd + 4 then (b, false)
  else
    (fill 0 (block.start + directoryAt) (block.start + tableEnd + 4)
      ((List.range entries).foldl (zeroValue little block directoryAt) b), true)

/-- The entry becomes one that no reader follows. -/
def orphan (little : Bool) (entry : ℕ) (b : Bytes) : Bytes :=
  fill 0 (entry + 8) (entry + 12) (setUint16 little neutralised.1 neutralised.2 entry b)

/-- The loop of `neutraliseGpsInTiff` for one entry of the first directory. -/
def neutraliseEntry (little : Bool) (block : TiffBlock) (ifd0 : ℕ) (state : Bytes × Bool)
    (i : ℕ) : Bytes × Bool :=
  let entry := block.start + ifd0 + 2 + i * ENTRY_SIZE
  if u16 little state.1 entry ≠ GPS_IFD_POINTER then state
  else
    let gpsAt := u32 little state.1 (entry + 8)
    let zeroed :=
      if 8 ≤ gpsAt ∧ gpsAt + 2 ≤ block.length then
        (zeroDirectory little block gpsAt state.1).1
      else state.1
    -- whatever became of the directory, the entry was changed
    (orphan little entry zeroed, true)

def firstDirectory (little : Bool) (block : TiffBlock) (b : Bytes) : Option (ℕ × ℕ) :=
  let ifd0 := u32 little b (block.start + 4)
  if u16 little b (block.start + 2) ≠ 42 then none
  else if ifd0 < 8 ∨ block.length < ifd0 + 2 then none
  else
    let entries := u16 little b (block.start + ifd0)
    if block.length < ifd0 + 2 + entries * ENTRY_SIZE then none else some (ifd0, entries)

def neutraliseGpsInTiff (block : TiffBlock) (b : Bytes) : Bytes × Bool :=
  if block.length < 8 ∨ b.length < block.start + 8 then (b, false)
  else if !isLittle b block.start && !isBig b block.start then (b, false)
  else
    let little := isLittle b block.start
    match firstDirectory little block b with
    | none => (b, false)
    | some (ifd0, entries) =>
        (List.range entries).foldl (neutraliseEntry little block ifd0) (b, false)

/-! ### XMP -/

def codes (s : String) : Bytes := s.toList.map fun c => c.toNat.toUInt8

def attributes : List Bytes :=
  [codes "exif:GPSLatitude", codes "exif:GPSLongitude", codes "exif:GPSAltitude",
    codes "exif:GPSTimeStamp", codes "exif:GPSDateStamp"]

def standsAt (b needle : Bytes) (place : ℕ) : Bool :=
  (List.range needle.length).all fun i => byte b (place + i) == byte needle i

/-- The first place from `start` on at which a test holds, below `stop`. -/
def firstFrom (test : ℕ → Bool) (start stop : ℕ) : Option ℕ :=
  (List.range' start (stop - start)).find? test

def indexOfAscii (b needle : Bytes) (start : ℕ) : Option ℕ :=
  firstFrom (standsAt b needle) start (b.length + 1 - needle.length)

/-- The characters `"`, `'` and `>`. -/
def isOpener (x : UInt8) : Bool := x == 0x22 || x == 0x27 || x == 0x3E

/-- What closes a value: the same quote, or `<` after `>`. -/
def closerOf (x : UInt8) : UInt8 := if x = 0x3E then 0x3C else x

def openerAfter (b : Bytes) (start : ℕ) : Option (ℕ × UInt8) :=
  (firstFrom (fun place => isOpener (byte b place)) start (min b.length (start + 8))).map
    fun place => (place, closerOf (byte b place))

def closerFrom (b : Bytes) (start : ℕ) (closer : UInt8) : Option ℕ :=
  firstFrom (fun place => byte b place == closer) start (min b.length (start + 256))

/-- The value behind a name that ends at a place, from its first byte up to its closer. -/
def valueAfter (b : Bytes) (start : ℕ) : Option (ℕ × ℕ) :=
  match openerAfter b start with
  | none => none
  | some (opened, closer) => (closerFrom b (opened + 1) closer).map fun stop => (opened + 1, stop)

def blankAttribute (name : Bytes) : ℕ → ℕ → Bytes × Bool → Bytes × Bool
  | 0, _, state => state
  | n + 1, start, state =>
      match indexOfAscii state.1 name start with
      | none => state
      | some place =>
          match valueAfter state.1 (place + name.length) with
          | none => blankAttribute name n (place + name.length) state
          | some (opened, stop) =>
              blankAttribute name n (place + name.length) (fill 0x20 opened stop state.1, true)

def blankXmpLocation (b : Bytes) : Bytes × Bool :=
  attributes.foldl (fun state name => blankAttribute name (b.length + 1) 0 state) (b, false)

/-! ### A picture -/

/-- The blocks that were found, one after another. -/
def neutraliseBlocks (blocks : List TiffBlock) (state : Bytes × Bool) : Bytes × Bool :=
  blocks.foldl (fun state block =>
    let one := neutraliseGpsInTiff block state.1
    (one.1, one.2 || state.2)) state

def stripImageLocation (b : Bytes) (contentType : Text) : Bytes × Bool :=
  let tiff := neutraliseBlocks (findTiffBlocks b contentType) (b, false)
  let xmp := blankXmpLocation tiff.1
  (xmp.1, xmp.2 || tiff.2)

/-! ### The walk -/

/-- A step that moves forward, from a place inside the file. -/
def Forward (bound : ℕ) (step : ℕ → Option (ℕ × List TiffBlock)) : Prop :=
  ∀ place next found, step place = some (next, found) → place < next ∧ place < bound

/-! #### The steps of the three containers -/

variable {b : Bytes} {place next : ℕ} {found : List TiffBlock}

/-- What a step over a JPEG marker says: where the next one is, and the block in between. -/
theorem jpegStep_some (h : jpegStep b place = some (next, found)) :
    place + 4 ≤ b.length ∧ next ≤ b.length ∧ place + 2 ≤ next ∧
      (found = [] ∨ found = [{ start := place + 10, length := next - (place + 10) }]) := by
  dsimp only [jpegStep] at h
  split_ifs at h with hend
  · cases h
    exact ⟨by omega, by omega, by omega, .inl rfl⟩
  · cases h
    refine ⟨by omega, by omega, by omega, .inr ?_⟩
    congr 2
    omega
  · cases h
    exact ⟨by omega, by omega, by omega, .inl rfl⟩

theorem pngStep_some (h : pngStep b place = some (next, found)) :
    next ≤ b.length + 4 ∧ place + 12 ≤ next ∧
      (found = [] ∨ found = [{ start := place + 8, length := next - (place + 12) }]) := by
  dsimp only [pngStep] at h
  split_ifs at h with hend hlength
  · cases h
    refine ⟨by omega, by omega, .inr ?_⟩
    congr 2
    omega
  · cases h
    exact ⟨by omega, by omega, .inl rfl⟩

theorem webpStep_some (h : webpStep b place = some (next, found)) :
    place + 8 + u32 true b (place + 4) ≤ b.length ∧
      place + 8 + u32 true b (place + 4) ≤ next ∧
      (found = [] ∨ found = [{ start := place + 8, length := u32 true b (place + 4) }]) := by
  dsimp only [webpStep] at h
  split_ifs at h with hend hlength
  · cases h
    exact ⟨by omega, by omega, .inr rfl⟩
  · cases h
    exact ⟨by omega, by omega, .inl rfl⟩

theorem forward_jpegStep (b : Bytes) : Forward b.length (jpegStep b) := by
  intro place next found h
  have hstep := jpegStep_some h
  omega

theorem forward_pngStep (b : Bytes) : Forward b.length (pngStep b) := by
  intro place next found h
  have hstep := pngStep_some h
  omega

theorem forward_webpStep (b : Bytes) : Forward b.length (webpStep b) := by
  intro place next found h
  have hstep := webpStep_some h
  omega

end ImageLocation
