/-
**Neutralising one TIFF block.**

What `neutraliseGpsInTiff` does to the bytes of a file: of an arbitrary block, that it writes
inside the block and behind its header only, that no entry of the first directory is a GPS pointer
afterwards, and that it would find nothing more to do; of a well-formed one, which bytes exactly
are zero afterwards and which are as they were.

Main results:

* `ImageLocation.noPointer_neutralise`, `ImageLocation.neutralise_of_noPointer` — **once is
  enough**;
* `ImageLocation.neutralise_gps`, `ImageLocation.neutralise_other` — **a well-formed block**.
-/

import Texturion.ImageLocation

namespace ImageLocation

open InPlace

/-! ### Changes inside a block -/

/-- The bytes that change lie in the block, behind its header. -/
def Within (block : TiffBlock) (b b' : Bytes) : Prop :=
  b'.length = b.length ∧
    ∀ p, byte b' p = byte b p ∨ block.start + 8 ≤ p ∧ p < block.start + block.length

def IsZero (x : UInt8) : Prop := x = 0

/-- A byte that no GPS tag has. -/
def NoTag (x : UInt8) : Prop := x ≠ 0x88 ∧ x ≠ 0x25

variable {little : Bool} {block : TiffBlock} {b b' c : Bytes}

theorem Within.refl (block : TiffBlock) (b : Bytes) : Within block b b := ⟨rfl, fun _ => .inl rfl⟩

theorem Within.trans (h : Within block b b') (h' : Within block b' c) : Within block b c := by
  refine ⟨h'.1.trans h.1, fun p => ?_⟩
  rcases h'.2 p with heq | hin
  · rw [heq]
    exact h.2 p
  · exact .inr hin

theorem Within.fill {v : UInt8} {s e : ℕ} (hs : block.start + 8 ≤ s)
    (he : e ≤ block.start + block.length) (b : Bytes) : Within block b (InPlace.fill v s e b) := by
  refine ⟨length_fill v s e b, fun p => ?_⟩
  rcases byte_fill_cases v s e b p with h | ⟨-, hin⟩
  · exact .inl h
  · exact .inr (by omega)

variable {p j : ℕ}

theorem Within.setUint16 {high low : UInt8} (hs : block.start + 8 ≤ p)
    (he : p + 2 ≤ block.start + block.length) (b : Bytes) :
    Within block b (InPlace.setUint16 little high low p b) := by
  refine ⟨length_setUint16 high low, fun q => ?_⟩
  by_cases hq : q < p ∨ p + 2 ≤ q
  · exact .inl (byte_setUint16_of_ne hq)
  · exact .inr (by omega)

/-- What holds over the start of a fold and over each step holds over the fold. -/
theorem foldl_rel {α β : Type} {R : β → β → Prop} (hrefl : ∀ x, R x x)
    (htrans : ∀ {x y z}, R x y → R y z → R x z) {f : β → α → β} {l : List α}
    (hstep : ∀ x, ∀ a ∈ l, R x (f x a)) (x : β) : R x (l.foldl f x) := by
  induction l generalizing x with
  | nil => exact hrefl x
  | cons a l ih =>
    have hhead := hstep x a (List.mem_cons_self ..)
    exact htrans hhead (ih (fun y a' ha' => hstep y a' (List.mem_cons_of_mem _ ha')) _)

theorem within_zeroValue (directoryAt : ℕ) (b : Bytes) (i : ℕ) :
    Within block b (zeroValue little block directoryAt b i) := by
  dsimp only [zeroValue]
  split_ifs with h
  · exact .fill (by omega) (by omega) b
  · exact .refl block b

theorem within_zeroDirectory {directoryAt : ℕ} (h : 8 ≤ directoryAt) (b : Bytes) :
    Within block b (zeroDirectory little block directoryAt b).1 := by
  dsimp only [zeroDirectory]
  split_ifs with hend
  · exact .refl block b
  · exact (foldl_rel (Within.refl block) Within.trans
      (fun x i _ => within_zeroValue directoryAt x i) b).trans (.fill (by omega) (by omega) _)

theorem within_orphan {entry : ℕ} (hs : block.start + 8 ≤ entry)
    (he : entry + 12 ≤ block.start + block.length) (b : Bytes) :
    Within block b (orphan little entry b) :=
  (Within.setUint16 hs (by omega) b).trans (.fill (by omega) (by omega) _)

theorem within_neutraliseEntry {ifd0 entries i : ℕ} (hat : 8 ≤ ifd0)
    (hend : ifd0 + 2 + entries * ENTRY_SIZE ≤ block.length) (hi : i < entries)
    (state : Bytes × Bool) :
    Within block state.1 (neutraliseEntry little block ifd0 state i).1 := by
  have hsize : ENTRY_SIZE = 12 := rfl
  have horphan : ∀ x : Bytes,
      Within block x (orphan little (block.start + ifd0 + 2 + i * ENTRY_SIZE) x) := by
    intro x
    exact within_orphan (by omega) (by rw [hsize] at hend ⊢; omega) x
  dsimp only [neutraliseEntry]
  split_ifs with htag hgps
  · exact .refl block _
  · exact (within_zeroDirectory hgps.1 _).trans (horphan _)
  · exact horphan _

theorem firstDirectory_some {ifd0 entries : ℕ}
    (h : firstDirectory little block b = some (ifd0, entries)) :
    u16 little b (block.start + 2) = 42 ∧ ifd0 = u32 little b (block.start + 4) ∧ 8 ≤ ifd0 ∧
      entries = u16 little b (block.start + ifd0) ∧
        ifd0 + 2 + entries * ENTRY_SIZE ≤ block.length := by
  dsimp only [firstDirectory] at h
  split_ifs at h with hmagic hat hend
  cases h
  exact ⟨by omega, rfl, by omega, rfl, by omega⟩

theorem neutralise_rel {R : Bytes → Bytes → Prop} (hrefl : ∀ x, R x x)
    (htrans : ∀ {x y z}, R x y → R y z → R x z)
    (hstep : ∀ ifd0 entries i state,
      firstDirectory (isLittle b block.start) block b = some (ifd0, entries) → i < entries →
        R state.1 (neutraliseEntry (isLittle b block.start) block ifd0 state i).1) :
    R b (neutraliseGpsInTiff block b).1 := by
  dsimp only [neutraliseGpsInTiff]
  split_ifs with hlength hmark
  · exact hrefl b
  · exact hrefl b
  · cases hfirst : firstDirectory (isLittle b block.start) block b with
    | none => exact hrefl b
    | some found =>
      exact foldl_rel (R := fun x y : Bytes × Bool => R x.1 y.1) (fun x => hrefl x.1) htrans
        (fun state i hi => hstep _ _ i state hfirst (List.mem_range.1 hi)) (b, false)

/-- **The bytes that change lie in the block, behind its header.** -/
theorem within_neutralise (block : TiffBlock) (b : Bytes) :
    Within block b (neutraliseGpsInTiff block b).1 := by
  refine neutralise_rel (Within.refl block) Within.trans fun ifd0 entries i state hfirst hi => ?_
  obtain ⟨-, -, hat, -, hend⟩ := firstDirectory_some hfirst
  exact within_neutraliseEntry hat hend hi state

/-! ### No byte of a tag is written -/

theorem isZero_zero : IsZero 0 := rfl

theorem noTag_zero : NoTag 0 := by
  unfold NoTag
  decide

theorem noTag_blank : NoTag 0x20 := by
  unfold NoTag
  decide

theorem noTag_neutralised : NoTag neutralised.1 ∧ NoTag neutralised.2 := by
  unfold NoTag
  decide

theorem wiped_zeroDirectory (directoryAt : ℕ) (b : Bytes) :
    Wiped IsZero b (zeroDirectory little block directoryAt b).1 := by
  dsimp only [zeroDirectory]
  split_ifs with hend
  · exact .refl _ b
  · refine (foldl_rel (Wiped.refl IsZero) Wiped.trans (fun x i _ => ?_) b).trans
      (.fill isZero_zero _ _ _)
    dsimp only [zeroValue]
    split_ifs
    · exact .fill isZero_zero _ _ x
    · exact .refl _ x

theorem noTag_of_zeroed (h : Wiped IsZero b b') : Wiped NoTag b b' := by
  refine ⟨h.1, fun p => (h.2 p).imp_right fun hzero => ?_⟩
  rw [show byte b' p = 0 from hzero]
  exact noTag_zero

theorem wiped_orphan (entry : ℕ) (b : Bytes) : Wiped NoTag b (orphan little entry b) :=
  (Wiped.setUint16 noTag_neutralised.1 noTag_neutralised.2 entry b).trans
    (.fill noTag_zero _ _ _)

theorem wiped_neutraliseEntry (ifd0 i : ℕ) (state : Bytes × Bool) :
    Wiped NoTag state.1 (neutraliseEntry little block ifd0 state i).1 := by
  dsimp only [neutraliseEntry]
  split_ifs
  · exact .refl _ _
  · exact (noTag_of_zeroed (wiped_zeroDirectory _ _)).trans (wiped_orphan _ _)
  · exact wiped_orphan _ _

theorem wiped_neutralise (block : TiffBlock) (b : Bytes) :
    Wiped NoTag b (neutraliseGpsInTiff block b).1 :=
  neutralise_rel (Wiped.refl NoTag) Wiped.trans fun ifd0 _ i state _ _ =>
    wiped_neutraliseEntry ifd0 i state

theorem gps_of_wiped (h : Wiped NoTag b b') (htag : u16 little b' p = GPS_IFD_POINTER) :
    u16 little b p = GPS_IFD_POINTER :=
  h.u16_eq (fun hn => hn.1 rfl) (fun hn => hn.2 rfl) htag

/-! ### Once is enough -/

/-- The tag of an entry of the first directory. -/
def tagAt (little : Bool) (block : TiffBlock) (ifd0 : ℕ) (b : Bytes) (i : ℕ) : ℕ :=
  u16 little b (block.start + ifd0 + 2 + i * ENTRY_SIZE)

theorem u16_orphan {entry : ℕ} (h : entry + 2 ≤ b.length) :
    u16 little (orphan little entry b) entry ≠ GPS_IFD_POINTER := by
  have hkept : u16 little (orphan little entry b) entry =
      u16 little (setUint16 little neutralised.1 neutralised.2 entry b) entry :=
    u16_congr fun q _ hq => byte_fill_of_lt (by omega)
  rw [hkept, u16_setUint16 h]
  decide

theorem foldl_noPointer {ifd0 : ℕ} {l : List ℕ} (state : Bytes × Bool)
    (h : ∀ i ∈ l, tagAt little block ifd0 state.1 i ≠ GPS_IFD_POINTER) :
    l.foldl (neutraliseEntry little block ifd0) state = state := by
  induction l with
  | nil => rfl
  | cons i l ih =>
    have hskip : neutraliseEntry little block ifd0 state i = state :=
      if_pos (h i (List.mem_cons_self ..))
    rw [List.foldl_cons, hskip]
    exact ih fun j hj => h j (List.mem_cons_of_mem _ hj)

theorem tagAt_foldl {ifd0 entries n : ℕ} (hfile : block.start + block.length ≤ b.length)
    (hat : 8 ≤ ifd0) (hend : ifd0 + 2 + entries * ENTRY_SIZE ≤ block.length) (hn : n ≤ entries) :
    ∀ i < n, tagAt little block ifd0
      ((List.range n).foldl (neutraliseEntry little block ifd0) (b, false)).1 i ≠
        GPS_IFD_POINTER := by
  have hsize : ENTRY_SIZE = 12 := rfl
  induction n with
  | zero => exact nofun
  | succ n ih =>
    intro i hi
    rw [List.range_succ, List.foldl_append, List.foldl_cons, List.foldl_nil]
    generalize hstate : (List.range n).foldl (neutraliseEntry little block ifd0) (b, false) =
      state at ih
    have hlength : state.1.length = b.length := by
      rw [← hstate]
      exact (foldl_rel (R := fun x y : Bytes × Bool => Within block x.1 y.1)
        (fun x => .refl block x.1) Within.trans
        (fun s j hj => within_neutraliseEntry hat hend (by
          have hj := List.mem_range.1 hj
          omega) s) (b, false)).1
    rcases Nat.lt_succ_iff_lt_or_eq.1 hi with hlt | rfl
    · intro htag
      exact ih (by omega) i hlt (gps_of_wiped (wiped_neutraliseEntry ifd0 n state) htag)
    · -- the entry of this turn
      by_cases htag : tagAt little block ifd0 state.1 i = GPS_IFD_POINTER
      · have hplace : block.start + ifd0 + 2 + i * ENTRY_SIZE + 2 ≤ b.length := by
          rw [hsize] at hend ⊢
          omega
        have hstep : neutraliseEntry little block ifd0 state i =
            (orphan little (block.start + ifd0 + 2 + i * ENTRY_SIZE)
              (if 8 ≤ u32 little state.1 (block.start + ifd0 + 2 + i * ENTRY_SIZE + 8) ∧
                  u32 little state.1 (block.start + ifd0 + 2 + i * ENTRY_SIZE + 8) + 2 ≤
                    block.length then
                (zeroDirectory little block
                  (u32 little state.1 (block.start + ifd0 + 2 + i * ENTRY_SIZE + 8)) state.1).1
              else state.1), true) := if_neg (not_not_intro htag)
        rw [hstep]
        refine u16_orphan ?_
        split_ifs
        · rw [(wiped_zeroDirectory _ _).1, hlength]
          exact hplace
        · rw [hlength]
          exact hplace
      · have hskip : neutraliseEntry little block ifd0 state i = state := if_pos htag
        rw [hskip]
        exact htag

theorem byte_orphan_of_lt {entry p : ℕ} (h : p < entry) :
    byte (orphan little entry b) p = byte b p := by
  rw [orphan, byte_fill_of_lt (by omega), byte_setUint16_of_ne (.inl h)]

/-- Before the entries of the first directory bytes are zeroed at most. -/
theorem zeroed_foldl {ifd0 p : ℕ} (hp : p < block.start + ifd0 + 2) (l : List ℕ)
    (state : Bytes × Bool) :
    byte (l.foldl (neutraliseEntry little block ifd0) state).1 p = byte state.1 p ∨
      byte (l.foldl (neutraliseEntry little block ifd0) state).1 p = 0 := by
  refine foldl_rel (R := fun x y : Bytes × Bool => byte y.1 p = byte x.1 p ∨ byte y.1 p = 0)
    (fun _ => .inl rfl) ?_ (fun s i _ => ?_) state
  · rintro x y z h (h' | h')
    · rw [h']
      exact h
    · exact .inr h'
  · dsimp only [neutraliseEntry]
    split_ifs
    · exact .inl rfl
    · rw [byte_orphan_of_lt (by omega)]
      exact (wiped_zeroDirectory _ _).2 p
    · rw [byte_orphan_of_lt (by omega)]
      exact .inl rfl

/-- **A block that was neutralised is left alone the next time**, whatever became of the file
around its header, as long as no GPS tag was written into it. -/
theorem neutralise_again (hfile : block.start + block.length ≤ b.length)
    (hwiped : Wiped NoTag (neutraliseGpsInTiff block b).1 c)
    (hheader : ∀ p, block.start ≤ p → p < block.start + 8 → byte c p = byte b p)
    (hcount : 8 ≤ u32 (isLittle b block.start) b (block.start + 4) →
      u32 (isLittle b block.start) b (block.start + 4) + 2 ≤ block.length →
        ∀ p, block.start + u32 (isLittle b block.start) b (block.start + 4) ≤ p →
          p < block.start + u32 (isLittle b block.start) b (block.start + 4) + 2 →
            byte c p = byte (neutraliseGpsInTiff block b).1 p) :
    neutraliseGpsInTiff block c = (c, false) := by
  have hlength : c.length = b.length := hwiped.1.trans (within_neutralise block b).1
  have hlittle : isLittle c block.start = isLittle b block.start := by
    rw [isLittle, isLittle, hheader _ (by omega) (by omega), hheader _ (by omega) (by omega)]
  have hbig : isBig c block.start = isBig b block.start := by
    rw [isBig, isBig, hheader _ (by omega) (by omega), hheader _ (by omega) (by omega)]
  have hmagic : ∀ little, u16 little c (block.start + 2) = u16 little b (block.start + 2) :=
    fun little => u16_congr fun q hq hq' => hheader q (by omega) (by omega)
  have hifd0 : ∀ little, u32 little c (block.start + 4) = u32 little b (block.start + 4) :=
    fun little => u32_congr fun q hq hq' => hheader q (by omega) (by omega)
  dsimp only [neutraliseGpsInTiff] at hwiped hcount ⊢
  rw [hlength, hlittle, hbig]
  split_ifs at hwiped hcount ⊢ with hshort hmark
  · rfl
  · rfl
  · cases hfirst : firstDirectory (isLittle b block.start) block c with
    | none => rfl
    | some found =>
      obtain ⟨hmagic', hat, hle, hentries, hend⟩ := firstDirectory_some hfirst
      rw [hmagic] at hmagic'
      rw [hifd0] at hat
      cases hsource : firstDirectory (isLittle b block.start) block b with
      | none =>
        -- the directory was refused for its count, which is as it was
        exfalso
        rw [hsource] at hcount
        have hsame : u16 (isLittle b block.start) c (block.start + found.1) =
            u16 (isLittle b block.start) b (block.start + found.1) :=
          u16_congr fun q hq hq' => hcount (by omega) (by omega) q (by omega) (by omega)
        rw [hsame] at hentries
        dsimp only [firstDirectory] at hsource
        split_ifs at hsource with h1 h2 h3
        · exact h1 hmagic'
        · rw [← hat] at h2
          omega
        · rw [← hat, ← hentries] at h3
          omega
      | some source =>
        obtain ⟨-, hat', hle', hentries', hend'⟩ := firstDirectory_some hsource
        rw [hsource] at hwiped hcount
        simp only at hwiped hcount
        have hdir : found.1 = source.1 := hat.trans hat'.symm
        -- zeroing made the count no larger
        have hle : found.2 ≤ source.2 := by
          rw [hentries, hentries', hdir]
          refine u16_le_of_zeroed fun q hq hq' => ?_
          rw [hcount (by omega) (by omega) q (by omega) (by omega)]
          exact zeroed_foldl (by omega) _ _
        refine foldl_noPointer (c, false) fun i hi htag => ?_
        have hi := List.mem_range.1 hi
        rw [hdir] at htag
        exact tagAt_foldl hfile hle' hend' (Nat.le_refl _) i (by omega)
          (gps_of_wiped hwiped htag)

/-! ### What is returned -/

theorem neutralise_false (h : (neutraliseGpsInTiff block b).2 = false) :
    (neutraliseGpsInTiff block b).1 = b := by
  dsimp only [neutraliseGpsInTiff] at h ⊢
  split_ifs at h ⊢
  · rfl
  · rfl
  · cases hfirst : firstDirectory (isLittle b block.start) block b with
    | none => rfl
    | some found =>
      rw [hfirst] at h
      have hkeep : ∀ (l : List ℕ) (state : Bytes × Bool),
          (l.foldl (neutraliseEntry (isLittle b block.start) block found.1) state).2 = false →
            (l.foldl (neutraliseEntry (isLittle b block.start) block found.1) state) = state := by
        intro l
        induction l with
        | nil => exact fun _ _ => rfl
        | cons i l ih =>
          intro state hflag
          have hrest := ih _ hflag
          rw [List.foldl_cons] at hflag ⊢
          rw [hrest] at hflag ⊢
          dsimp only [neutraliseEntry] at hflag ⊢
          split_ifs at hflag ⊢ with htag
          rfl
      exact congrArg Prod.fst (hkeep _ _ h)

/-- What is reported was there, and is there no more, also after further changes that write no
tag. -/
theorem neutralise_true (hfile : block.start + block.length ≤ b.length)
    (h : (neutraliseGpsInTiff block b).2 = true)
    (hwiped : Wiped NoTag (neutraliseGpsInTiff block b).1 c) : c ≠ b := by
  rintro rfl
  dsimp only [neutraliseGpsInTiff] at h hwiped
  split_ifs at h hwiped
  cases hfirst : firstDirectory (isLittle c block.start) block c with
  | none =>
    rw [hfirst] at h
    cases h
  | some found =>
    obtain ⟨-, -, hat, -, hend⟩ := firstDirectory_some hfirst
    rw [hfirst] at h hwiped
    simp only at h hwiped
    have hsome : ¬ ∀ i ∈ List.range found.2,
        tagAt (isLittle c block.start) block found.1 c i ≠ GPS_IFD_POINTER := by
      intro hnone
      rw [foldl_noPointer (c, false) hnone] at h
      cases h
    push Not at hsome
    obtain ⟨i, hi, htag⟩ := hsome
    exact tagAt_foldl hfile hat hend (Nat.le_refl _) i (List.mem_range.1 hi)
      (gps_of_wiped hwiped htag)

/-! ### A well-formed block -/

section WellFormed

variable (block : TiffBlock) (b : Bytes)

/-- The byte order. -/
def little' : Bool := isLittle b block.start

def ifd0At : ℕ := u32 (little' block b) b (block.start + 4)

def ifd0Entries : ℕ := u16 (little' block b) b (block.start + ifd0At block b)

/-- Where an entry of the first directory stands in the file. -/
def entryPlace (i : ℕ) : ℕ := block.start + ifd0At block b + 2 + i * ENTRY_SIZE

/-- The entry points to the GPS directory. -/
def IsPointer (i : ℕ) : Prop :=
  i < ifd0Entries block b ∧ u16 (little' block b) b (entryPlace block b i) = GPS_IFD_POINTER

def gpsAt (i : ℕ) : ℕ := u32 (little' block b) b (entryPlace block b i + 8)

def gpsEntries (i : ℕ) : ℕ := u16 (little' block b) b (block.start + gpsAt block b i)

/-- The end of the GPS directory in the block, behind the offset of the next one. -/
def gpsEnd (i : ℕ) : ℕ := gpsAt block b i + 2 + gpsEntries block b i * ENTRY_SIZE + 4

def gpsPlace (i j : ℕ) : ℕ := block.start + gpsAt block b i + 2 + j * ENTRY_SIZE

/-- A value of the GPS directory that does not stand in its entry. -/
def IsFar (i j : ℕ) : Prop :=
  j < gpsEntries block b i ∧ 4 < valueSize (little' block b) b (gpsPlace block b i j)

def valueAt (i j : ℕ) : ℕ := u32 (little' block b) b (gpsPlace block b i j + 8)

def valueEnd (i j : ℕ) : ℕ :=
  valueAt block b i j + valueSize (little' block b) b (gpsPlace block b i j)

/-- A TIFF block of a file with one GPS directory, or none; directories and values inside the
block and apart from each other. -/
structure WellFormed : Prop where
  inFile : block.start + block.length ≤ b.length
  header : 8 ≤ block.length
  mark : isLittle b block.start = true ∨ isBig b block.start = true
  magic : u16 (little' block b) b (block.start + 2) = 42
  directory : 8 ≤ ifd0At block b ∧
    ifd0At block b + 2 + ifd0Entries block b * ENTRY_SIZE ≤ block.length
  onePointer : ∀ i j, IsPointer block b i → IsPointer block b j → i = j
  gpsDirectory : ∀ i, IsPointer block b i →
    8 ≤ gpsAt block b i ∧ gpsEnd block b i ≤ block.length ∧
      (gpsEnd block b i ≤ ifd0At block b ∨
        ifd0At block b + 2 + ifd0Entries block b * ENTRY_SIZE ≤ gpsAt block b i)
  value : ∀ i j, IsPointer block b i → IsFar block b i j →
    8 ≤ valueAt block b i j ∧ valueEnd block b i j ≤ block.length ∧
      (valueEnd block b i j ≤ ifd0At block b ∨
        ifd0At block b + 2 + ifd0Entries block b * ENTRY_SIZE ≤ valueAt block b i j) ∧
      (valueEnd block b i j ≤ gpsAt block b i ∨ gpsEnd block b i ≤ valueAt block b i j)
  /-- Every entry of the GPS directory has one of the twelve types of TIFF. -/
  types : ∀ i j, IsPointer block b i → j < gpsEntries block b i →
    typeSize (u16 (little' block b) b (gpsPlace block b i j + 2)) ≠ 0

/-- A byte of the GPS directory, or of one of its values. -/
def InGps (p : ℕ) : Prop :=
  ∃ i, IsPointer block b i ∧
    (block.start + gpsAt block b i ≤ p ∧ p < block.start + gpsEnd block b i ∨
      ∃ j, IsFar block b i j ∧ block.start + valueAt block b i j ≤ p ∧
        p < block.start + valueEnd block b i j)

/-- A byte of the tag, or of the offset, of the entry that points to the GPS directory. -/
def InPointer (p : ℕ) : Prop :=
  ∃ i, IsPointer block b i ∧
    (entryPlace block b i ≤ p ∧ p < entryPlace block b i + 2 ∨
      entryPlace block b i + 8 ≤ p ∧ p < entryPlace block b i + 12)

instance (i : ℕ) : Decidable (IsPointer block b i) := inferInstanceAs (Decidable (_ ∧ _))

instance (i j : ℕ) : Decidable (IsFar block b i j) := inferInstanceAs (Decidable (_ ∧ _))

theorem wellFormed_iff : WellFormed block b ↔
    block.start + block.length ≤ b.length ∧ 8 ≤ block.length ∧
      (isLittle b block.start = true ∨ isBig b block.start = true) ∧
      u16 (little' block b) b (block.start + 2) = 42 ∧
      (8 ≤ ifd0At block b ∧
        ifd0At block b + 2 + ifd0Entries block b * ENTRY_SIZE ≤ block.length) ∧
      (∀ i < ifd0Entries block b, ∀ j < ifd0Entries block b,
        IsPointer block b i → IsPointer block b j → i = j) ∧
      (∀ i < ifd0Entries block b, IsPointer block b i →
        8 ≤ gpsAt block b i ∧ gpsEnd block b i ≤ block.length ∧
          (gpsEnd block b i ≤ ifd0At block b ∨
            ifd0At block b + 2 + ifd0Entries block b * ENTRY_SIZE ≤ gpsAt block b i)) ∧
      (∀ i < ifd0Entries block b, ∀ j < gpsEntries block b i,
        IsPointer block b i → IsFar block b i j →
          8 ≤ valueAt block b i j ∧ valueEnd block b i j ≤ block.length ∧
            (valueEnd block b i j ≤ ifd0At block b ∨
              ifd0At block b + 2 + ifd0Entries block b * ENTRY_SIZE ≤ valueAt block b i j) ∧
            (valueEnd block b i j ≤ gpsAt block b i ∨ gpsEnd block b i ≤ valueAt block b i j)) ∧
      (∀ i < ifd0Entries block b, ∀ j < gpsEntries block b i, IsPointer block b i →
        typeSize (u16 (little' block b) b (gpsPlace block b i j + 2)) ≠ 0) := by
  constructor
  · intro h
    exact ⟨h.inFile, h.header, h.mark, h.magic, h.directory, fun i _ j _ => h.onePointer i j,
      fun i _ => h.gpsDirectory i, fun i _ j _ => h.value i j, fun i _ j hj hi => h.types i j hi hj⟩
  · rintro ⟨hfile, hheader, hmark, hmagic, hdirectory, hone, hgps, hvalue, htypes⟩
    exact ⟨hfile, hheader, hmark, hmagic, hdirectory,
      fun i j hi hj => hone i hi.1 j hj.1 hi hj, fun i hi => hgps i hi.1 hi,
      fun i j hi hfar => hvalue i hi.1 j hfar.1 hi hfar, fun i j hi hj => htypes i hi.1 j hj hi⟩

set_option synthInstance.maxSize 1000 in
instance : Decidable (WellFormed block b) := decidable_of_iff' _ (wellFormed_iff block b)

end WellFormed

/-- A byte of a value of one of some entries. -/
def Covered (block : TiffBlock) (b : Bytes) (i : ℕ) (js : List ℕ) (p : ℕ) : Prop :=
  ∃ j ∈ js, IsFar block b i j ∧ block.start + valueAt block b i j ≤ p ∧
    p < block.start + valueEnd block b i j

/-- The GPS directory stands in a file as it does in another. -/
def SameDirectory (block : TiffBlock) (b : Bytes) (i : ℕ) (x : Bytes) : Prop :=
  x.length = b.length ∧ ∀ q, block.start + gpsAt block b i ≤ q →
    q < block.start + gpsEnd block b i → byte x q = byte b q

variable {i : ℕ}

theorem gpsPlace_lt (hj : j < gpsEntries block b i) :
    block.start + gpsAt block b i + 2 ≤ gpsPlace block b i j ∧
      gpsPlace block b i j + 16 ≤ block.start + gpsEnd block b i := by
  have hsize : ENTRY_SIZE = 12 := rfl
  rw [gpsPlace, gpsEnd, hsize]
  omega

section

variable (h : WellFormed block b)
include h

theorem zeroValue_far (hi : IsPointer block b i) (hj : j < gpsEntries block b i) {x : Bytes}
    (hx : SameDirectory block b i x) :
    SameDirectory block b i (zeroValue (little' block b) block (gpsAt block b i) x j) ∧
      ∀ p, Covered block b i [j] p ∧
          byte (zeroValue (little' block b) block (gpsAt block b i) x j) p = 0 ∨
        ¬ Covered block b i [j] p ∧
          byte (zeroValue (little' block b) block (gpsAt block b i) x j) p = byte x p := by
  obtain ⟨hplace, hplace'⟩ := gpsPlace_lt hj
  have hread : ∀ q, gpsPlace block b i j ≤ q → q < gpsPlace block b i j + 12 →
      byte x q = byte b q := fun q hq hq' => hx.2 q (by omega) (by omega)
  have hsize : valueSize (little' block b) x (gpsPlace block b i j) =
      valueSize (little' block b) b (gpsPlace block b i j) := by
    rw [valueSize, valueSize, u16_congr fun q hq hq' => hread q (by omega) (by omega),
      u32_congr fun q hq hq' => hread q (by omega) (by omega)]
  have hat : u32 (little' block b) x (gpsPlace block b i j + 8) = valueAt block b i j :=
    u32_congr fun q hq hq' => hread q (by omega) (by omega)
  have hstep : zeroValue (little' block b) block (gpsAt block b i) x j =
      if 4 < valueSize (little' block b) b (gpsPlace block b i j) ∧ 8 ≤ valueAt block b i j ∧
          valueEnd block b i j ≤ block.length then
        fill 0 (block.start + valueAt block b i j) (block.start + valueEnd block b i j) x
      else x := by
    rw [valueEnd, ← hat, ← hsize, ← Nat.add_assoc]
    rfl
  rw [hstep]
  by_cases hfar : IsFar block b i j
  · obtain ⟨hlow, hhigh, -, hapart⟩ := h.value i j hi hfar
    have hfile := h.inFile
    rw [if_pos ⟨hfar.2, hlow, hhigh⟩]
    refine ⟨⟨(length_fill ..).trans hx.1, fun q hq hq' => ?_⟩, fun p => ?_⟩
    · rw [byte_fill, if_neg (by omega)]
      exact hx.2 q hq hq'
    · by_cases hp : block.start + valueAt block b i j ≤ p ∧ p < block.start + valueEnd block b i j
      · refine .inl ⟨⟨j, List.mem_singleton_self j, hfar, hp⟩, ?_⟩
        exact byte_fill_in hp.1 hp.2 (by rw [hx.1]; omega)
      · refine .inr ⟨?_, by rw [byte_fill, if_neg fun hin => hp ⟨hin.1, hin.2.1⟩]⟩
        rintro ⟨j', hj', -, hcover⟩
        rw [List.mem_singleton.1 hj'] at hcover
        exact hp hcover
  · rw [if_neg fun hin => hfar ⟨hj, hin.1⟩]
    refine ⟨hx, fun p => .inr ⟨?_, rfl⟩⟩
    rintro ⟨j', hj', hfar', -⟩
    rw [List.mem_singleton.1 hj'] at hfar'
    exact hfar hfar'

/-- The values of some entries are zeroed, and nothing else is touched. -/
theorem foldl_zeroValue (hi : IsPointer block b i) (js : List ℕ)
    (hjs : ∀ j ∈ js, j < gpsEntries block b i) {x : Bytes} (hx : SameDirectory block b i x) :
    ∀ p, Covered block b i js p ∧
        byte (js.foldl (zeroValue (little' block b) block (gpsAt block b i)) x) p = 0 ∨
      ¬ Covered block b i js p ∧
        byte (js.foldl (zeroValue (little' block b) block (gpsAt block b i)) x) p =
          byte x p := by
  induction js generalizing x with
  | nil =>
    intro p
    refine .inr ⟨?_, rfl⟩
    rintro ⟨j, hj, -⟩
    cases hj
  | cons j js ih =>
    intro p
    obtain ⟨hsame, hone⟩ := zeroValue_far h hi (hjs j (List.mem_cons_self ..)) hx
    have hsplit : Covered block b i (j :: js) p ↔
        Covered block b i [j] p ∨ Covered block b i js p := by
      simp [Covered, or_and_right, exists_or]
    rw [List.foldl_cons, hsplit]
    rcases ih (fun k hk => hjs k (List.mem_cons_of_mem _ hk)) hsame p with
      ⟨hcover, hzero⟩ | ⟨hcover, heq⟩
    · exact .inl ⟨.inr hcover, hzero⟩
    · rw [heq]
      rcases hone p with ⟨hcover', hzero⟩ | ⟨hcover', heq'⟩
      · exact .inl ⟨.inl hcover', hzero⟩
      · exact .inr ⟨fun hc => hc.elim hcover' hcover, heq'⟩

/-- The directory and its values are zeroed, and nothing else is touched. -/
theorem zeroDirectory_gps (hi : IsPointer block b i) (p : ℕ) :
    InGps block b p ∧
        byte (zeroDirectory (little' block b) block (gpsAt block b i) b).1 p = 0 ∨
      ¬ InGps block b p ∧
        byte (zeroDirectory (little' block b) block (gpsAt block b i) b).1 p = byte b p := by
  obtain ⟨hlow, hhigh, -⟩ := h.gpsDirectory i hi
  have hfile := h.inFile
  have hin : InGps block b p ↔
      block.start + gpsAt block b i ≤ p ∧ p < block.start + gpsEnd block b i ∨
        Covered block b i (List.range (gpsEntries block b i)) p := by
    constructor
    · rintro ⟨i', hi', hp⟩
      rw [h.onePointer i' i hi' hi] at hp
      refine hp.imp_right ?_
      rintro ⟨j, hfar, hp⟩
      exact ⟨j, List.mem_range.2 hfar.1, hfar, hp⟩
    · rintro (hp | ⟨j, -, hfar, hp⟩)
      · exact ⟨i, hi, .inl hp⟩
      · exact ⟨i, hi, .inr ⟨j, hfar, hp⟩⟩
  have hvalues := foldl_zeroValue h hi (List.range (gpsEntries block b i))
    (fun j hj => List.mem_range.1 hj) ⟨rfl, fun _ _ _ => rfl⟩ p
  have hstep : (zeroDirectory (little' block b) block (gpsAt block b i) b).1 =
      fill 0 (block.start + gpsAt block b i) (block.start + gpsEnd block b i)
        ((List.range (gpsEntries block b i)).foldl
          (zeroValue (little' block b) block (gpsAt block b i)) b) := by
    have hroom : ¬ block.length < gpsAt block b i + 2 + gpsEntries block b i * ENTRY_SIZE + 4 := by
      rw [gpsEnd] at hhigh
      omega
    rw [zeroDirectory]
    exact congrArg Prod.fst (if_neg hroom)
  have hlength : ((List.range (gpsEntries block b i)).foldl
      (zeroValue (little' block b) block (gpsAt block b i)) b).length = b.length :=
    (foldl_rel (Within.refl block) Within.trans
      (fun x j _ => within_zeroValue (gpsAt block b i) x j) b).1
  rw [hstep, hin]
  by_cases hdir : block.start + gpsAt block b i ≤ p ∧ p < block.start + gpsEnd block b i
  · exact .inl ⟨.inl hdir, byte_fill_in hdir.1 hdir.2 (by rw [hlength]; omega)⟩
  · rw [byte_fill, if_neg fun hp => hdir ⟨hp.1, hp.2.1⟩]
    rcases hvalues with ⟨hcover, hzero⟩ | ⟨hno, heq⟩
    · exact .inl ⟨.inr hcover, hzero⟩
    · exact .inr ⟨fun hp => hp.elim hdir hno, heq⟩

/-! #### The whole block -/

/-- What a block holds does not depend on how far it is said to go on. -/
theorem WellFormed.longer {length : ℕ} (hlength : block.length ≤ length)
    (hfile : block.start + length ≤ b.length) :
    WellFormed { start := block.start, length := length } b where
  inFile := hfile
  header := Nat.le_trans h.header hlength
  mark := h.mark
  magic := h.magic
  directory := ⟨h.directory.1, Nat.le_trans h.directory.2 hlength⟩
  onePointer := h.onePointer
  gpsDirectory i hi :=
    have hdir := h.gpsDirectory i hi
    ⟨hdir.1, Nat.le_trans hdir.2.1 hlength, hdir.2.2⟩
  value i j hi hfar :=
    have hvalue := h.value i j hi hfar
    ⟨hvalue.1, Nat.le_trans hvalue.2.1 hlength, hvalue.2.2⟩
  types := h.types

theorem inGps_apart (hp : InGps block b p) :
    block.start + 8 ≤ p ∧ p < block.start + block.length ∧
      (p < block.start + ifd0At block b ∨
        block.start + ifd0At block b + 2 + ifd0Entries block b * ENTRY_SIZE ≤ p) := by
  obtain ⟨i, hi, hp | ⟨j, hfar, hp⟩⟩ := hp
  · have hdir := h.gpsDirectory i hi
    omega
  · have hvalue := h.value i j hi hfar
    omega

end

theorem entryPlace_lt (hi : i < ifd0Entries block b) :
    block.start + ifd0At block b + 2 ≤ entryPlace block b i ∧
      entryPlace block b i + 12 ≤
        block.start + ifd0At block b + 2 + ifd0Entries block b * ENTRY_SIZE := by
  have hsize : ENTRY_SIZE = 12 := rfl
  rw [entryPlace, hsize]
  omega

section

variable (h : WellFormed block b)
include h

theorem firstDirectory_wellFormed :
    firstDirectory (little' block b) block b = some (ifd0At block b, ifd0Entries block b) := by
  have hdirectory := h.directory
  dsimp only [firstDirectory]
  rw [if_neg (not_not_intro h.magic), if_neg, if_neg]
  · rfl
  · exact Nat.not_lt.2 hdirectory.2
  · rintro (hlow | hhigh)
    · exact absurd hdirectory.1 (Nat.not_le.2 hlow)
    · have hroom : block.length < ifd0At block b + 2 := hhigh
      omega

theorem neutralise_eq :
    neutraliseGpsInTiff block b =
      (List.range (ifd0Entries block b)).foldl
        (neutraliseEntry (little' block b) block (ifd0At block b)) (b, false) := by
  have hheader := h.header
  have hfile := h.inFile
  have hmark : ¬ (!isLittle b block.start && !isBig b block.start) = true := by
    rcases h.mark with hm | hm <;> simp [hm]
  have hfirst := firstDirectory_wellFormed h
  rw [little'] at hfirst
  dsimp only [neutraliseGpsInTiff]
  rw [if_neg (by omega), if_neg hmark, hfirst]
  rfl

theorem neutralise_none (hnone : ∀ i, ¬ IsPointer block b i) :
    neutraliseGpsInTiff block b = (b, false) := by
  rw [neutralise_eq h]
  exact foldl_noPointer (b, false) fun i hi htag => hnone i ⟨List.mem_range.1 hi, htag⟩

theorem neutralise_some (hi : IsPointer block b i) :
    (neutraliseGpsInTiff block b).1 =
      orphan (little' block b) (entryPlace block b i)
        (zeroDirectory (little' block b) block (gpsAt block b i) b).1 := by
  obtain ⟨s, t, hsplit⟩ := List.append_of_mem (List.mem_range.2 hi.1)
  have hnodup : (s ++ i :: t).Nodup := hsplit ▸ List.nodup_range
  have hother : ∀ j, j ∈ s ∨ j ∈ t → ¬ IsPointer block b j := by
    intro j hj hpointer
    rw [h.onePointer j i hpointer hi] at hj
    rw [List.nodup_append, List.nodup_cons] at hnodup
    rcases hj with hj | hj
    · exact hnodup.2.2 i hj i (List.mem_cons_self ..) rfl
    · exact hnodup.2.1.1 hj
  have hentries : ∀ j, j ∈ s ∨ j ∈ t → j < ifd0Entries block b := by
    intro j hj
    have hmem : j ∈ s ++ i :: t := by
      rcases hj with hj | hj
      · exact List.mem_append_left _ hj
      · exact List.mem_append_right _ (List.mem_cons_of_mem _ hj)
    rw [← hsplit] at hmem
    exact List.mem_range.1 hmem
  have hbefore : s.foldl (neutraliseEntry (little' block b) block (ifd0At block b)) (b, false) =
      (b, false) :=
    foldl_noPointer (b, false) fun j hj htag => hother j (.inl hj) ⟨hentries j (.inl hj), htag⟩
  have hgps := h.gpsDirectory i hi
  have hstep : neutraliseEntry (little' block b) block (ifd0At block b) (b, false) i =
      (orphan (little' block b) (entryPlace block b i)
        (zeroDirectory (little' block b) block (gpsAt block b i) b).1, true) := by
    have htag : u16 (little' block b) b (entryPlace block b i) = GPS_IFD_POINTER := hi.2
    have hroom : 8 ≤ gpsAt block b i ∧ gpsAt block b i + 2 ≤ block.length := by
      rw [gpsEnd] at hgps
      omega
    have hread : u32 (little' block b) b (entryPlace block b i + 8) = gpsAt block b i := rfl
    have hplace : block.start + ifd0At block b + 2 + i * ENTRY_SIZE = entryPlace block b i := rfl
    dsimp only [neutraliseEntry]
    rw [hplace, hread, if_neg (not_not_intro htag), if_pos hroom]
  rw [neutralise_eq h, hsplit, List.foldl_append, hbefore, List.foldl_cons, hstep,
    foldl_noPointer]
  intro j hj htag
  refine hother j (.inr hj) ⟨hentries j (.inr hj), ?_⟩
  exact gps_of_wiped ((noTag_of_zeroed (wiped_zeroDirectory _ _)).trans (wiped_orphan _ _)) htag

/-- **The GPS directory of a well-formed block and its values are zero afterwards.** -/
theorem neutralise_gps (hp : InGps block b p) : byte (neutraliseGpsInTiff block b).1 p = 0 := by
  have hapart := inGps_apart h hp
  obtain ⟨i, hi, -⟩ := id hp
  have hentry := entryPlace_lt hi.1
  rw [neutralise_some h hi, orphan, byte_fill, if_neg (by omega),
    byte_setUint16_of_ne (by omega)]
  exact ((zeroDirectory_gps h hi p).resolve_right fun hno => hno.1 hp).2

/-- **All else but the pointer is as it was.** -/
theorem neutralise_other (hgps : ¬ InGps block b p)
    (hpointer : ¬ InPointer block b p) : byte (neutraliseGpsInTiff block b).1 p = byte b p := by
  by_cases hsome : ∃ i, IsPointer block b i
  · obtain ⟨i, hi⟩ := hsome
    have hout : ¬ (entryPlace block b i ≤ p ∧ p < entryPlace block b i + 2 ∨
        entryPlace block b i + 8 ≤ p ∧ p < entryPlace block b i + 12) :=
      fun hin => hpointer ⟨i, hi, hin⟩
    rw [neutralise_some h hi, orphan, byte_fill, if_neg (by omega),
      byte_setUint16_of_ne (by omega)]
    exact ((zeroDirectory_gps h hi p).resolve_left fun hin => hgps hin.1).2
  · rw [neutralise_none h fun i hi => hsome ⟨i, hi⟩]

/-- No entry of the first directory is a GPS pointer afterwards, also after further changes that
write no tag. -/
theorem neutralise_tags (hwiped : Wiped NoTag (neutraliseGpsInTiff block b).1 c) {i : ℕ}
    (hi : i < ifd0Entries block b) :
    u16 (little' block b) c (entryPlace block b i) ≠ GPS_IFD_POINTER := by
  intro htag
  have htag' := gps_of_wiped hwiped htag
  rw [neutralise_eq h] at htag'
  exact tagAt_foldl h.inFile h.directory.1 h.directory.2 (Nat.le_refl _) i hi htag'

end

/-! #### The rest of the file -/

/-- The block stands in a file as it does in another. -/
def SameBlock (block : TiffBlock) (b c : Bytes) : Prop :=
  c.length = b.length ∧
    ∀ p, block.start ≤ p → p < block.start + block.length → byte c p = byte b p

namespace SameBlock

section

variable (hs : SameBlock block b c) (h : WellFormed block b)
include hs h

theorem little' : little' block c = little' block b := by
  have hheader := h.header
  rw [ImageLocation.little', ImageLocation.little', isLittle, isLittle,
    hs.2 _ (by omega) (by omega), hs.2 _ (by omega) (by omega)]

theorem ifd0At : ifd0At block c = ifd0At block b := by
  have hheader := h.header
  rw [ImageLocation.ifd0At, ImageLocation.ifd0At, hs.little' h]
  exact u32_congr fun q hq hq' => hs.2 q (by omega) (by omega)

theorem ifd0Entries : ifd0Entries block c = ifd0Entries block b := by
  have hdirectory := h.directory
  rw [ImageLocation.ifd0Entries, ImageLocation.ifd0Entries, hs.little' h, hs.ifd0At h]
  exact u16_congr fun q hq hq' => hs.2 q (by omega) (by omega)

theorem entryPlace (i : ℕ) : entryPlace block c i = entryPlace block b i := by
  rw [ImageLocation.entryPlace, ImageLocation.entryPlace, hs.ifd0At h]

theorem byte_entry {i q : ℕ} (hi : i < ImageLocation.ifd0Entries block b)
    (hq : ImageLocation.entryPlace block b i ≤ q)
    (hq' : q < ImageLocation.entryPlace block b i + 12) : byte c q = byte b q := by
  have hentry := entryPlace_lt hi
  have hdirectory := h.directory
  exact hs.2 q (by omega) (by omega)

theorem isPointer (i : ℕ) : IsPointer block c i ↔ IsPointer block b i := by
  rw [IsPointer, IsPointer, hs.ifd0Entries h, hs.little' h, hs.entryPlace h]
  refine and_congr_right fun hi => ?_
  rw [u16_congr fun q hq hq' => hs.byte_entry h hi hq (by omega)]

end

variable {i : ℕ}

section

variable (hs : SameBlock block b c) (h : WellFormed block b)
include hs h

section

variable (hi : IsPointer block b i)
include hi

theorem gpsAt : gpsAt block c i = gpsAt block b i := by
  rw [ImageLocation.gpsAt, ImageLocation.gpsAt, hs.little' h, hs.entryPlace h]
  exact u32_congr fun q hq hq' => hs.byte_entry h hi.1 (by omega) (by omega)

theorem gpsEntries : gpsEntries block c i = gpsEntries block b i := by
  have hgps := h.gpsDirectory i hi
  rw [ImageLocation.gpsEntries, ImageLocation.gpsEntries, hs.little' h, hs.gpsAt h hi]
  refine u16_congr fun q hq hq' => hs.2 q (by omega) ?_
  rw [ImageLocation.gpsEnd] at hgps
  omega

theorem gpsEnd : gpsEnd block c i = gpsEnd block b i := by
  rw [ImageLocation.gpsEnd, ImageLocation.gpsEnd, hs.gpsAt h hi, hs.gpsEntries h hi]

theorem gpsPlace (j : ℕ) : gpsPlace block c i j = gpsPlace block b i j := by
  rw [ImageLocation.gpsPlace, ImageLocation.gpsPlace, hs.gpsAt h hi]

theorem byte_gpsEntry {j q : ℕ} (hj : j < ImageLocation.gpsEntries block b i)
    (hq : ImageLocation.gpsPlace block b i j ≤ q)
    (hq' : q < ImageLocation.gpsPlace block b i j + 12) : byte c q = byte b q := by
  have hplace := gpsPlace_lt hj
  have hgps := h.gpsDirectory i hi
  exact hs.2 q (by omega) (by omega)

theorem valueSize (hj : j < ImageLocation.gpsEntries block b i) :
    valueSize (ImageLocation.little' block b) c (ImageLocation.gpsPlace block b i j) =
      valueSize (ImageLocation.little' block b) b (ImageLocation.gpsPlace block b i j) := by
  rw [ImageLocation.valueSize, ImageLocation.valueSize,
    u16_congr fun q hq hq' => hs.byte_gpsEntry h hi hj (by omega) (by omega),
    u32_congr fun q hq hq' => hs.byte_gpsEntry h hi hj (by omega) (by omega)]

theorem isFar (j : ℕ) : IsFar block c i j ↔ IsFar block b i j := by
  rw [IsFar, IsFar, hs.gpsEntries h hi, hs.little' h, hs.gpsPlace h hi]
  refine and_congr_right fun hj => ?_
  rw [hs.valueSize h hi hj]

theorem valueAt (hfar : IsFar block b i j) : valueAt block c i j = valueAt block b i j := by
  rw [ImageLocation.valueAt, ImageLocation.valueAt, hs.little' h, hs.gpsPlace h hi]
  exact u32_congr fun q hq hq' => hs.byte_gpsEntry h hi hfar.1 (by omega) (by omega)

theorem valueEnd (hfar : IsFar block b i j) : valueEnd block c i j = valueEnd block b i j := by
  rw [ImageLocation.valueEnd, ImageLocation.valueEnd, hs.valueAt h hi hfar, hs.little' h,
    hs.gpsPlace h hi, hs.valueSize h hi hfar.1]

end

/-- **A block is well formed wherever it stands.** -/
theorem wellFormed : WellFormed block c where
  inFile := hs.1 ▸ h.inFile
  header := h.header
  mark := by
    have hheader := h.header
    have hmark := h.mark
    rw [isLittle, isBig] at hmark ⊢
    rw [hs.2 _ (by omega) (by omega), hs.2 _ (by omega) (by omega)]
    exact hmark
  magic := by
    have hheader := h.header
    rw [hs.little' h, u16_congr fun q hq hq' => hs.2 q (by omega) (by omega)]
    exact h.magic
  directory := by
    rw [hs.ifd0At h, hs.ifd0Entries h]
    exact h.directory
  onePointer i j hi hj := h.onePointer i j ((hs.isPointer h i).1 hi) ((hs.isPointer h j).1 hj)
  gpsDirectory i hi := by
    have hi := (hs.isPointer h i).1 hi
    rw [hs.gpsAt h hi, hs.gpsEnd h hi, hs.ifd0At h, hs.ifd0Entries h]
    exact h.gpsDirectory i hi
  value i j hi hfar := by
    have hi := (hs.isPointer h i).1 hi
    have hfar := (hs.isFar h hi j).1 hfar
    rw [hs.valueAt h hi hfar, hs.valueEnd h hi hfar, hs.gpsAt h hi, hs.gpsEnd h hi, hs.ifd0At h,
      hs.ifd0Entries h]
    exact h.value i j hi hfar
  types i j hi hj := by
    have hi := (hs.isPointer h i).1 hi
    rw [hs.gpsEntries h hi] at hj
    rw [hs.little' h, hs.gpsPlace h hi,
      u16_congr fun q hq hq' => hs.byte_gpsEntry h hi hj (by omega) (by omega)]
    exact h.types i j hi hj

theorem inGps (p : ℕ) : InGps block c p ↔ InGps block b p := by
  rw [InGps, InGps]
  refine exists_congr fun i => ?_
  rw [hs.isPointer h]
  refine and_congr_right fun hi => ?_
  rw [hs.gpsAt h hi, hs.gpsEnd h hi]
  refine or_congr_right (exists_congr fun j => ?_)
  rw [hs.isFar h hi]
  refine and_congr_right fun hfar => ?_
  rw [hs.valueAt h hi hfar, hs.valueEnd h hi hfar]

theorem inPointer (p : ℕ) : InPointer block c p ↔ InPointer block b p := by
  simp only [InPointer, hs.isPointer h, hs.entryPlace h]

end

end SameBlock

end ImageLocation
