/-
**What the walks of the containers look at.**

A walk reads the headers of a container and finds the blocks between them.  The headers it comes by
are collected here; they lie outside of every block found, and as long as their bytes stay the walk
finds the same blocks.  The blocks themselves lie in the file, apart from each other.

Main result:

* `ImageLocation.findTiffBlocks_congr` — **the headers decide the blocks**.
-/

import Texturion.TiffLocation

namespace ImageLocation

open InPlace
open JsText (Text ofString trim matchesWord)

def TiffBlock.Has (block : TiffBlock) (p : ℕ) : Prop :=
  block.start ≤ p ∧ p < block.start + block.length

def TiffBlock.Apart (x y : TiffBlock) : Prop := ∀ p, x.Has p → ¬ y.Has p

/-! ### Walks -/

/-- The places a walk comes by, the one where it ends among them. -/
def places (step : ℕ → Option (ℕ × List TiffBlock)) : ℕ → ℕ → List ℕ
  | 0, _ => []
  | n + 1, place =>
    place :: match step place with
      | none => []
      | some (next, _) => places step n next

def Framed (bound header : ℕ) (step : ℕ → Option (ℕ × List TiffBlock)) : Prop :=
  ∀ place next found, step place = some (next, found) → place < next ∧ found.length ≤ 1 ∧
    ∀ block ∈ found, ∀ p, block.Has p → place + header ≤ p ∧ p < next ∧ p < bound

variable {bound header : ℕ} {step step' : ℕ → Option (ℕ × List TiffBlock)} {n place : ℕ}
  {block : TiffBlock}

theorem walk_cons {next : ℕ} {found : List TiffBlock} (h : step place = some (next, found)) :
    walk step (n + 1) place = found ++ walk step n next := by
  rw [walk, h]

theorem places_cons {next : ℕ} {found : List TiffBlock} (h : step place = some (next, found)) :
    places step (n + 1) place = place :: places step n next := by
  rw [places, h]

theorem walk_nil (h : step place = none) : walk step (n + 1) place = [] := by
  rw [walk, h]

theorem places_nil (h : step place = none) : places step (n + 1) place = [place] := by
  rw [places, h]

theorem walk_congr (h : ∀ q ∈ places step n place, step' q = step q) :
    walk step' n place = walk step n place := by
  induction n generalizing place with
  | zero => rfl
  | succ n ih =>
    cases hstep : step place with
    | none =>
      rw [places_nil hstep] at h
      rw [walk_nil hstep, walk_nil ((h place (List.mem_singleton_self place)).trans hstep)]
    | some next =>
      rw [places_cons hstep] at h
      rw [walk_cons hstep, walk_cons ((h place (List.mem_cons_self ..)).trans hstep),
        ih fun q hq => h q (List.mem_cons_of_mem _ hq)]

section

variable (hf : Framed bound header step)
include hf

theorem Framed.place_le {q : ℕ} (hq : q ∈ places step n place) : place ≤ q := by
  induction n generalizing place with
  | zero => cases hq
  | succ n ih =>
    cases hstep : step place with
    | none =>
      rw [places_nil hstep, List.mem_singleton] at hq
      exact hq.ge
    | some next =>
      rw [places_cons hstep] at hq
      rcases List.mem_cons.1 hq with rfl | hq
      · exact Nat.le_refl _
      · have hlt := (hf place _ _ hstep).1
        have hle := ih hq
        omega

theorem Framed.le_of_has (hblock : block ∈ walk step n place)
    {p : ℕ} (hp : block.Has p) : place + header ≤ p ∧ p < bound := by
  induction n generalizing place with
  | zero => cases hblock
  | succ n ih =>
    cases hstep : step place with
    | none =>
      rw [walk_nil hstep] at hblock
      cases hblock
    | some next =>
      obtain ⟨hlt, -, hfound⟩ := hf place _ _ hstep
      rw [walk_cons hstep] at hblock
      rcases List.mem_append.1 hblock with hmem | hmem
      · have hin := hfound block hmem p hp
        exact ⟨hin.1, hin.2.2⟩
      · have hle := ih hmem
        omega

theorem Framed.apart (n place : ℕ) : (walk step n place).Pairwise TiffBlock.Apart := by
  induction n generalizing place with
  | zero => exact .nil
  | succ n ih =>
    cases hstep : step place with
    | none =>
      rw [walk_nil hstep]
      exact .nil
    | some next =>
      obtain ⟨-, hone, hfound⟩ := hf place _ _ hstep
      rw [walk_cons hstep, List.pairwise_append]
      refine ⟨?_, ih _, fun x hx y hy p hp hp' => ?_⟩
      · match hlist : next.2 with
        | [] => exact .nil
        | [_] => exact List.pairwise_singleton ..
        | _ :: _ :: _ =>
          rw [hlist] at hone
          simp at hone
      · have hlt := (hfound x hx p hp).2.1
        have hle := (hf.le_of_has hy hp').1
        omega

/-- **No header that a walk comes by is inside a block that it finds.** -/
theorem Framed.head_apart {q p : ℕ} (hq : q ∈ places step n place)
    (hblock : block ∈ walk step n place) (hp : block.Has p) : p < q ∨ q + header ≤ p := by
  induction n generalizing place with
  | zero => cases hblock
  | succ n ih =>
    cases hstep : step place with
    | none =>
      rw [walk_nil hstep] at hblock
      cases hblock
    | some next =>
      obtain ⟨hlt, -, hfound⟩ := hf place _ _ hstep
      rw [walk_cons hstep] at hblock
      rw [places_cons hstep] at hq
      rcases List.mem_append.1 hblock with hmem | hmem
      · have hin := hfound block hmem p hp
        rcases List.mem_cons.1 hq with rfl | hq
        · exact .inr hin.1
        · have hle := hf.place_le hq
          exact .inl (by omega)
      · rcases List.mem_cons.1 hq with rfl | hq
        · have hle := (hf.le_of_has hmem hp).1
          exact .inr (by omega)
        · exact ih hq hmem

end

/-! ### The steps -/

variable {b b' : Bytes}

theorem framed_jpegStep (b : Bytes) : Framed b.length 10 (jpegStep b) := by
  intro place next found h
  obtain ⟨hroom, hnext, hlt, hfound⟩ := jpegStep_some h
  refine ⟨by omega, ?_, ?_⟩
  · rcases hfound with rfl | rfl <;> simp
  · intro block hblock p hp
    rcases hfound with rfl | rfl
    · cases hblock
    · rw [List.mem_singleton.1 hblock, TiffBlock.Has] at hp
      simp only at hp
      omega

theorem framed_pngStep (b : Bytes) : Framed (b.length) 8 (pngStep b) := by
  intro place next found h
  obtain ⟨hnext, hlt, hfound⟩ := pngStep_some h
  refine ⟨by omega, ?_, ?_⟩
  · rcases hfound with rfl | rfl <;> simp
  · intro block hblock p hp
    rcases hfound with rfl | rfl
    · cases hblock
    · rw [List.mem_singleton.1 hblock, TiffBlock.Has] at hp
      simp only at hp
      omega

theorem framed_webpStep (b : Bytes) : Framed (b.length) 8 (webpStep b) := by
  intro place next found h
  obtain ⟨hroom, hlt, hfound⟩ := webpStep_some h
  refine ⟨by omega, ?_, ?_⟩
  · rcases hfound with rfl | rfl <;> simp
  · intro block hblock p hp
    rcases hfound with rfl | rfl
    · cases hblock
    · rw [List.mem_singleton.1 hblock, TiffBlock.Has] at hp
      simp only at hp
      omega

/-- The bytes that a step over a JPEG marker reads. -/
def jpegHead (b : Bytes) (place : ℕ) : ℕ := if byte b (place + 1) = 0xE1 then 10 else 4

/-- The bytes of a range are the same in two files of one length. -/
def SameOn (b b' : Bytes) (s e : ℕ) : Prop := ∀ p, s ≤ p → p < e → byte b' p = byte b p

theorem jpegStep_congr (hlength : b'.length = b.length)
    (h : SameOn b b' place (place + jpegHead b place)) : jpegStep b' place = jpegStep b place := by
  have hfour : 4 ≤ jpegHead b place := by
    unfold jpegHead
    split_ifs <;> omega
  dsimp only [jpegStep]
  rw [hlength, h place (by omega) (by omega), h (place + 1) (by omega) (by omega),
    u16_congr fun q hq hq' => h q (by omega) (by omega)]
  by_cases hmarker : byte b (place + 1) = 0xE1
  · have hten : jpegHead b place = 10 := if_pos hmarker
    rw [hten] at h
    have hexif : isExif b' (place + 4) = isExif b (place + 4) := by
      simp only [isExif]
      rw [h _ (by omega) (by omega), h _ (by omega) (by omega), h _ (by omega) (by omega),
        h _ (by omega) (by omega), h _ (by omega) (by omega), h _ (by omega) (by omega)]
    rw [hexif]
  · simp only [hmarker, false_and]

theorem isType_congr {s : ℕ} (h : SameOn b b' s (s + 4)) (name : UInt8 × UInt8 × UInt8 × UInt8) :
    isType b' s name = isType b s name := by
  simp only [isType]
  rw [h _ (by omega) (by omega), h _ (by omega) (by omega), h _ (by omega) (by omega),
    h _ (by omega) (by omega)]

theorem pngStep_congr (hlength : b'.length = b.length) (h : SameOn b b' place (place + 8)) :
    pngStep b' place = pngStep b place := by
  have htype : ∀ name, isType b' (place + 4) name = isType b (place + 4) name :=
    isType_congr fun q hq hq' => h q (by omega) (by omega)
  dsimp only [pngStep]
  rw [hlength, htype, htype, u32_congr fun q hq hq' => h q (by omega) (by omega)]

theorem webpStep_congr (hlength : b'.length = b.length) (h : SameOn b b' place (place + 8)) :
    webpStep b' place = webpStep b place := by
  have htype : ∀ name, isType b' place name = isType b place name :=
    isType_congr fun q hq hq' => h q (by omega) (by omega)
  dsimp only [webpStep]
  rw [hlength, htype, u32_congr fun q hq hq' => h q (by omega) (by omega)]

/-! ### The headers -/

/-- The ranges of bytes that the walk of a content type reads. -/
def findHeads (b : Bytes) (contentType : Text) : List (ℕ × ℕ) :=
  let type := trim contentType
  if matchesWord (ofString "IMAGE/JPEG") type then
    (0, 2) :: (places (jpegStep b) b.length 2).map fun q => (q, q + jpegHead b q)
  else if matchesWord (ofString "IMAGE/PNG") type then
    (places (pngStep b) b.length 8).map fun q => (q, q + 8)
  else if matchesWord (ofString "IMAGE/WEBP") type then
    (0, 4) :: (8, 12) :: (places (webpStep b) b.length 12).map fun q => (q, q + 8)
  else []

/-- The header of a block, and the count of its first directory, if that is in the block. -/
def tiffHeads (b : Bytes) (block : TiffBlock) : List (ℕ × ℕ) :=
  let ifd0 := u32 (isLittle b block.start) b (block.start + 4)
  (block.start, block.start + 8) ::
    if 8 ≤ ifd0 ∧ ifd0 + 2 ≤ block.length then [(block.start + ifd0, block.start + ifd0 + 2)]
    else []

/-- The ranges of bytes that decide what is found. -/
def structural (b : Bytes) (contentType : Text) : List (ℕ × ℕ) :=
  findHeads b contentType ++ (findTiffBlocks b contentType).flatMap (tiffHeads b)

variable {contentType : Text}

theorem heif_some (h : block ∈ heifTiffBlocks b) :
    block.start + 8 < b.length ∧ block.length = b.length - block.start ∧
      block.start < 1000000 ∧ isCandidate b block.start = true ∧
        heifTiffBlocks b = [block] ∧ ∀ q < block.start, isCandidate b q = false := by
  rw [heifTiffBlocks] at h ⊢
  cases hfind : (List.range (min (b.length - 8) 1000000)).find? (isCandidate b) with
  | none =>
    rw [hfind] at h
    cases h
  | some place =>
    rw [hfind] at h
    obtain ⟨hcandidate, hmem, hfirst⟩ := List.find?_range_eq_some.1 hfind
    have hlt := List.mem_range.1 hmem
    rw [List.mem_singleton.1 h]
    exact ⟨by simp only; omega, rfl, by simp only; omega, hcandidate, rfl,
      fun q hq => by simpa using hfirst q hq⟩

theorem findTiffBlocks_inFile (h : block ∈ findTiffBlocks b contentType) {p : ℕ}
    (hp : block.Has p) : p < b.length := by
  rw [findTiffBlocks] at h
  split_ifs at h
  · rw [jpegTiffBlocks] at h
    split_ifs at h
    · cases h
    · exact ((framed_jpegStep b).le_of_has h hp).2
  · rw [pngTiffBlocks] at h
    split_ifs at h
    · cases h
    · exact ((framed_pngStep b).le_of_has h hp).2
  · rw [webpTiffBlocks] at h
    split_ifs at h
    · cases h
    · exact ((framed_webpStep b).le_of_has h hp).2
    · cases h
  · have hheif := heif_some h
    have hlt := hp.2
    omega
  · cases h

/-- **They lie apart.** -/
theorem findTiffBlocks_apart (b : Bytes) (contentType : Text) :
    (findTiffBlocks b contentType).Pairwise TiffBlock.Apart := by
  rw [findTiffBlocks]
  split_ifs
  · rw [jpegTiffBlocks]
    split_ifs
    · exact .nil
    · exact (framed_jpegStep b).apart _ _
  · rw [pngTiffBlocks]
    split_ifs
    · exact .nil
    · exact (framed_pngStep b).apart _ _
  · rw [webpTiffBlocks]
    split_ifs
    · exact .nil
    · exact (framed_webpStep b).apart _ _
    · exact .nil
  · rw [heifTiffBlocks]
    split
    · exact .nil
    · exact List.pairwise_singleton ..
  · exact .nil

/-- **No header is inside a block.** -/
theorem findHeads_apart {head : ℕ × ℕ} (hhead : head ∈ findHeads b contentType)
    (hblock : block ∈ findTiffBlocks b contentType) {p : ℕ} (hp : head.1 ≤ p) (hp' : p < head.2) :
    ¬ block.Has p := by
  intro hin
  rw [findTiffBlocks] at hblock
  rw [findHeads] at hhead
  split_ifs at hblock hhead
  · rw [jpegTiffBlocks] at hblock
    split_ifs at hblock
    · cases hblock
    · rcases List.mem_cons.1 hhead with rfl | hhead
      · have hle := ((framed_jpegStep b).le_of_has hblock hin).1
        simp only at hp'
        omega
      · obtain ⟨q, hq, rfl⟩ := List.mem_map.1 hhead
        have hten : jpegHead b q ≤ 10 := by
          unfold jpegHead
          split_ifs <;> omega
        have hapart := (framed_jpegStep b).head_apart hq hblock hin
        simp only at hp hp'
        omega
  · rw [pngTiffBlocks] at hblock
    split_ifs at hblock
    · cases hblock
    · obtain ⟨q, hq, rfl⟩ := List.mem_map.1 hhead
      have hapart := (framed_pngStep b).head_apart hq hblock hin
      simp only at hp hp'
      omega
  · rw [webpTiffBlocks] at hblock
    split_ifs at hblock
    · cases hblock
    · have hle := ((framed_webpStep b).le_of_has hblock hin).1
      rcases List.mem_cons.1 hhead with rfl | hhead
      · simp only at hp'
        omega
      rcases List.mem_cons.1 hhead with rfl | hhead
      · simp only at hp'
        omega
      obtain ⟨q, hq, rfl⟩ := List.mem_map.1 hhead
      have hapart := (framed_webpStep b).head_apart hq hblock hin
      simp only at hp hp'
      omega
    · cases hblock
  · cases hhead
  · cases hhead

/-! ### The headers decide the blocks -/

/-- A candidate of a file is one of every file of which it is a part with some bytes blanked. -/
theorem isCandidate_of_wiped (h : ∀ q, place ≤ q → q < place + 4 →
    byte b' q = byte b q ∨ byte b' q = 0x20) (hcandidate : isCandidate b' place = true) :
    isCandidate b place = true := by
  have hkept : ∀ q, place ≤ q → q < place + 4 → byte b' q ≠ 0x20 → byte b q = byte b' q :=
    fun q hq hq' hne => ((h q hq hq').resolve_right hne).symm
  have hnumber : ∀ little, u16 little b' (place + 2) = 42 → u16 little b (place + 2) = 42 := by
    intro little heq
    have hbytes := (@u16_eq_iff little b' (place + 2) 0 42).1 heq
    refine (@u16_eq_iff little b (place + 2) 0 42).2 ?_
    rw [hkept _ (by omega) (by omega), hkept _ (by omega) (by omega)]
    · exact hbytes
    · rw [hbytes.2]
      cases little <;> decide
    · rw [hbytes.1]
      cases little <;> decide
  have hmark : ∀ x : UInt8, x ≠ 0x20 → byte b' place = x → byte b' (place + 1) = x →
      byte b place = x ∧ byte b (place + 1) = x := by
    intro x hx h0 h1
    rw [hkept _ (by omega) (by omega) (by rw [h0]; exact hx),
      hkept _ (by omega) (by omega) (by rw [h1]; exact hx)]
    exact ⟨h0, h1⟩
  simp only [isCandidate, isLittle, isBig, Bool.and_eq_true, Bool.or_eq_true, beq_iff_eq]
    at hcandidate ⊢
  obtain ⟨⟨h0, h1⟩ | ⟨h0, h1⟩, hmagic⟩ := hcandidate
  · have hlittle := hmark 0x49 (by decide) h0 h1
    refine ⟨.inl hlittle, ?_⟩
    rw [h0, h1] at hmagic
    rw [hlittle.1, hlittle.2]
    exact hnumber _ hmagic
  · have hbig := hmark 0x4D (by decide) h0 h1
    refine ⟨.inr hbig, ?_⟩
    rw [h0, h1] at hmagic
    rw [hbig.1, hbig.2]
    exact hnumber _ hmagic

theorem heif_congr (hlength : b'.length = b.length)
    (hblocks : ∀ block ∈ heifTiffBlocks b, 8 ≤ block.length →
      SameOn b b' block.start (block.start + 8))
    (hbefore : ∀ q, (∀ block ∈ heifTiffBlocks b, q < block.start + 8) →
      byte b' q = byte b q ∨ byte b' q = 0x20) : heifTiffBlocks b' = heifTiffBlocks b := by
  cases hfind : (List.range (min (b.length - 8) 1000000)).find? (isCandidate b) with
  | none =>
    have hnil : heifTiffBlocks b = [] := by rw [heifTiffBlocks, hfind]
    rw [hnil] at hbefore ⊢
    have hfind' : (List.range (min (b'.length - 8) 1000000)).find? (isCandidate b') = none := by
      rw [hlength]
      refine List.find?_range_eq_none.2 fun q hq => ?_
      have hno := List.find?_range_eq_none.1 hfind q hq
      simp only [Bool.not_eq_true'] at hno ⊢
      by_contra hcandidate
      rw [isCandidate_of_wiped (fun q _ _ => hbefore q nofun) (by simpa using hcandidate)] at hno
      cases hno
    rw [heifTiffBlocks, hfind']
  | some place =>
    have hone : heifTiffBlocks b = [{ start := place, length := b.length - place }] := by
      rw [heifTiffBlocks, hfind]
    rw [hone] at hblocks hbefore ⊢
    obtain ⟨hcandidate, hmem, hfirst⟩ := List.find?_range_eq_some.1 hfind
    have hplace := List.mem_range.1 hmem
    have hsame := hblocks _ (List.mem_singleton_self _) (by simp only; omega)
    simp only at hsame
    have hfind' : (List.range (min (b'.length - 8) 1000000)).find? (isCandidate b') =
        some place := by
      rw [hlength]
      refine List.find?_range_eq_some.2 ⟨?_, hmem, fun q hq => ?_⟩
      · rw [isCandidate, isLittle, isBig, hsame _ (by omega) (by omega),
          hsame _ (by omega) (by omega),
          u16_congr fun r hr hr' => hsame r (by omega) (by omega)]
        exact hcandidate
      · have hno := hfirst q hq
        simp only [Bool.not_eq_true'] at hno ⊢
        by_contra hcandidate'
        rw [isCandidate_of_wiped (fun r hr hr' => hbefore r fun block hblock => ?_)
          (by simpa using hcandidate')] at hno
        · cases hno
        · rw [List.mem_singleton.1 hblock]
          simp only
          omega
    rw [heifTiffBlocks, hfind', hlength]

theorem findTiffBlocks_congr (hlength : b'.length = b.length)
    (hheads : ∀ head ∈ findHeads b contentType, SameOn b b' head.1 head.2)
    (hblocks : ∀ block ∈ findTiffBlocks b contentType, 8 ≤ block.length →
      SameOn b b' block.start (block.start + 8))
    (hbefore : ∀ q, (∀ block ∈ findTiffBlocks b contentType, q < block.start + 8) →
      byte b' q = byte b q ∨ byte b' q = 0x20) :
    findTiffBlocks b' contentType = findTiffBlocks b contentType := by
  rw [findHeads] at hheads
  rw [findTiffBlocks] at hblocks hbefore ⊢
  rw [findTiffBlocks]
  split_ifs at hheads hblocks hbefore ⊢
  · rw [jpegTiffBlocks, jpegTiffBlocks, hlength]
    have hstart := hheads (0, 2) (List.mem_cons_self ..)
    rw [hstart 0 (by omega) (by simp), hstart 1 (by omega) (by simp)]
    split_ifs
    · rfl
    · refine walk_congr fun q hq => jpegStep_congr hlength ?_
      exact hheads _ (List.mem_cons_of_mem _ (List.mem_map.2 ⟨q, hq, rfl⟩))
  · rw [pngTiffBlocks, pngTiffBlocks, hlength]
    split_ifs
    · rfl
    · refine walk_congr fun q hq => pngStep_congr hlength ?_
      exact hheads _ (List.mem_map.2 ⟨q, hq, rfl⟩)
  · rw [webpTiffBlocks, webpTiffBlocks, hlength,
      isType_congr (hheads (0, 4) (List.mem_cons_self ..)),
      isType_congr (hheads (8, 12) (List.mem_cons_of_mem _ (List.mem_cons_self ..)))]
    split_ifs
    · rfl
    · refine walk_congr fun q hq => webpStep_congr hlength ?_
      refine hheads (q, q + 8) (List.mem_cons_of_mem _ (List.mem_cons_of_mem _ ?_))
      exact List.mem_map.2 ⟨q, hq, rfl⟩
    · rfl
  · exact heif_congr hlength hblocks hbefore
  · rfl

end ImageLocation
