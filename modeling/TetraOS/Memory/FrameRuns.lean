import TetraOS.Memory.PhysicalAllocator
import Mathlib.Logic.Relation

/-! Runs of the frame allocator: any order of `kalloc_frame`, `kfree_frame` and writes by others. -/

namespace TetraOS.Memory.PhysicalAllocator

open Library.ByteMemory Relation

def flag (img : Image) (i : ℕ) : ℕ := (placed img).managedFramesAddressStart + i
def frame (img : Image) (i : ℕ) : ℕ := (placed img).firstFrameAddress + frameSize * i

def FlagByte (img : Image) (x : ℕ) : Prop := ∃ i < numFrames img, x = physical (flag img i)

def alignedStart (img : Image) : ℕ := (img.physicalHeapStart + 4095) / 4096 * 4096

section Layout

variable {img : Image}

lemma placed_eq (h : img.physicalHeapStart ≤ 2 ^ 32) :
    placed img = ⟨alignedStart img + virtualOffset, alignedStart img + 32768⟩ := by
  simp only [placed, Image.bssEnd, framesForManaging, frameSize, virtualOffset, alignedStart]
  rw [allignAddress_eq (by omega), allignAddress_eq (by omega)]
  simp only [Frames.mk.injEq]
  omega

lemma physical_flag (h : img.physicalHeapStart ≤ 2 ^ 32) {i : ℕ} (hi : i ≤ 2 ^ 32) :
    physical (flag img i) = alignedStart img + i := by
  simp only [flag, placed_eq h, alignedStart, virtualOffset, physical_eq]
  omega

lemma frame_eq (h : img.physicalHeapStart ≤ 2 ^ 32) (i : ℕ) :
    frame img i = alignedStart img + 32768 + 4096 * i := by
  simp only [frame, placed_eq h, frameSize]

lemma numFrames_eq (h : img.physicalHeapStart ≤ img.physicalMemoryEnd)
    (hroom : 8 ≤ (img.physicalMemoryEnd - img.physicalHeapStart) / 4096)
    (hend : img.physicalMemoryEnd ≤ 2 ^ 32) :
    numFrames img = (img.physicalMemoryEnd - img.physicalHeapStart) / 4096 - 8 := by
  simp only [numFrames, Image.physicalHeapSize, frameSize, framesForManaging]
  rw [Int.tdiv_eq_ediv_of_nonneg (by omega)]
  omega

end Layout

lemma kallocFrame_spec {limit n : ℕ} {m : Memory} {a : Frames} (hn : n ≤ limit) (hn' : n ≤ 2 ^ 20)
    (ha : a.firstFrameAddress + 4096 * n < 2 ^ 64)
    (hfree : ∃ i < n, isFree m (a.managedFramesAddressStart + i) = true) :
    ∃ i < n, isFree m (a.managedFramesAddressStart + i) = true ∧
      (∀ j < i, isFree m (a.managedFramesAddressStart + j) = false) ∧
      kallocFrame limit m a = some (a.firstFrameAddress + 4096 * i,
        setPageframeAllocated m (a.managedFramesAddressStart + i), a) := by
  obtain ⟨k, hk, hf⟩ := hfree
  obtain ⟨⟨flags, index⟩, hr⟩ := Option.isSome_iff_exists.mp (findFree_isSome (k := 0) hk hf)
  obtain ⟨i, hi, rfl, rfl, hfree, hmin⟩ := findFree_some (by omega) hr
  refine ⟨i, hi, hfree, hmin, ?_⟩
  rw [kallocFrame, findFree_mono hn hr, Option.map_some]
  have hp : (0 + i) * frameSize % 2 ^ 32 = 4096 * i := by simp only [frameSize]; omega
  simp only [hp]
  rw [Nat.mod_eq_of_lt (by omega)]

section Flags

variable {img : Image}

lemma isFree_update (h : img.physicalHeapStart ≤ 2 ^ 32) {m : Memory} {i j : ℕ} {b : UInt8} (hi : i ≤ 2 ^ 32)
    (hj : j ≤ 2 ^ 32) :
    isFree (Function.update m (physical (flag img i)) b) (flag img j) =
      if j = i then b == 0 else isFree m (flag img j) := by
  simp only [isFree, Function.update_apply, physical_flag h hi, physical_flag h hj, Nat.add_left_cancel_iff]
  split <;> rfl

lemma isFree_write {m : Memory} {x : ℕ} {b : UInt8} (hx : ¬ FlagByte img x) {j : ℕ}
    (hj : j < numFrames img) : isFree (Function.update m x b) (flag img j) = isFree m (flag img j) := by
  have hne : physical (flag img j) ≠ x := fun he => hx ⟨j, hj, he.symm⟩
  simp only [isFree, Function.update_of_ne hne]

lemma isFree_init (m : Memory) {j : ℕ} (hj : j < numFrames img) :
    isFree (physicalAllocatorInit img m).1 (flag img j) = true := by
  simp only [isFree, physicalAllocatorInit, clearFlags_apply]
  rw [if_pos ⟨j, hj, rfl⟩]
  rfl

end Flags

inductive Step (img : Image) (limit : ℕ) (Writes : Set ℕ → ℕ → Prop) :
    Memory × Set ℕ → Memory × Set ℕ → Prop
  | kallocFrame {m held f m' a} : (∃ i < numFrames img, isFree m (flag img i) = true) →
      kallocFrame limit m (placed img) = some (f, m', a) → Step img limit Writes (m, held) (m', insert f held)
  | kfreeFrame {m held f} : f ∈ held →
      Step img limit Writes (m, held) (kfreeFrame m (placed img) f, held \ {f})
  | write {m held x} (b : UInt8) : Writes held x → Step img limit Writes (m, held) (Function.update m x b, held)

def Run (img : Image) (limit : ℕ) (Writes : Set ℕ → ℕ → Prop) (m₀ m : Memory) (held : Set ℕ) : Prop :=
  ReflTransGen (Step img limit Writes) ((physicalAllocatorInit img m₀).1, ∅) (m, held)

structure Tracks (img : Image) (m : Memory) (held : Set ℕ) : Prop where
  flagged : ∀ i < numFrames img, isFree m (flag img i) = false ↔ frame img i ∈ held
  managed : ∀ f ∈ held, ∃ i < numFrames img, f = frame img i

structure Room (img : Image) : Prop where
  aligned : img.physicalMemoryEnd % 4096 = 0
  low : img.physicalMemoryEnd ≤ 2 ^ 32
  frames : 8 < (img.physicalMemoryEnd - img.physicalHeapStart) / 4096

namespace Room

variable {img : Image} (hr : Room img)
include hr

lemma start_le : img.physicalHeapStart ≤ 2 ^ 32 := by
  have := hr.low
  have := hr.frames
  omega

lemma numFrames_le : numFrames img ≤ 2 ^ 20 := by
  have := hr.low
  have := hr.frames
  rw [numFrames_eq (by omega) (by omega) hr.low]
  omega

lemma frame_bounds {i : ℕ} (hi : i < numFrames img) : frame img i % 4096 = 0 ∧
    img.physicalHeapStart ≤ frame img i ∧ frame img i + 4096 ≤ img.physicalMemoryEnd := by
  have := hr.low
  have := hr.frames
  have := hr.aligned
  rw [numFrames_eq (by omega) (by omega) hr.low] at hi
  rw [frame_eq hr.start_le, alignedStart]
  omega

lemma frame_injective {i j : ℕ} (h : frame img i = frame img j) : i = j := by
  rw [frame_eq hr.start_le, frame_eq hr.start_le] at h
  omega

lemma getFrameNumber_frame {i : ℕ} (hi : i < numFrames img) :
    getFrameNumber (placed img) (frame img i) = i := by
  have := hr.low
  have hb := (hr.frame_bounds hi).2.2
  rw [frame_eq hr.start_le] at hb
  simp only [getFrameNumber, frame_eq hr.start_le, placed_eq hr.start_le, frameSize]
  omega

lemma kallocFrame_eq {limit : ℕ} (hl : numFrames img ≤ limit) {m : Memory}
    (hf : ∃ i < numFrames img, isFree m (flag img i) = true) :
    ∃ i < numFrames img, isFree m (flag img i) = true ∧ (∀ j < i, isFree m (flag img j) = false) ∧
      kallocFrame limit m (placed img) =
        some (frame img i, setPageframeAllocated m (flag img i), placed img) := by
  apply kallocFrame_spec hl hr.numFrames_le _ hf
  have := hr.low
  have := hr.frames
  have := hr.numFrames_le
  simp only [placed_eq hr.start_le, alignedStart]
  omega

lemma kfreeFrame_frame {m : Memory} {i : ℕ} (hi : i < numFrames img) :
    kfreeFrame m (placed img) (frame img i) = setPageframeFree m (flag img i) := by
  rw [kfreeFrame, hr.getFrameNumber_frame hi, flag]

lemma kfreeFrame_kallocFrame {m : Memory} {i : ℕ} (hi : i < numFrames img)
    (hf : isFree m (flag img i) = true) :
    kfreeFrame (setPageframeAllocated m (flag img i)) (placed img) (frame img i) = m := by
  have hz : m (physical (flag img i)) = 0 := by simpa [isFree] using hf
  rw [hr.kfreeFrame_frame hi, setPageframeFree, setPageframeAllocated, Function.update_idem, ← hz,
    Function.update_eq_self]

end Room

lemma Tracks.step {img : Image} {limit : ℕ} (hr : Room img) (hl : numFrames img ≤ limit)
    {c d : Memory × Set ℕ} (h : Step img limit (fun _ x => ¬ FlagByte img x) c d)
    (hc : Tracks img c.1 c.2) : Tracks img d.1 d.2 := by
  have hn := hr.numFrames_le
  cases h with
  | @kallocFrame m held f m' a hfree hk =>
    obtain ⟨i, hi, _, _, he⟩ := hr.kallocFrame_eq hl hfree
    obtain ⟨rfl, rfl, _⟩ : frame img i = f ∧ setPageframeAllocated m (flag img i) = m' ∧ placed img = a := by
      simpa using he.symm.trans hk
    constructor
    · intro j hj
      rw [setPageframeAllocated, isFree_update hr.start_le (by omega) (by omega), Set.mem_insert_iff]
      by_cases hij : j = i
      · simp [hij]
      · rw [if_neg hij, hc.flagged j hj, or_iff_right (fun he => hij (hr.frame_injective he))]
    · intro g hg
      rcases hg with rfl | hg
      · exact ⟨i, hi, rfl⟩
      · exact hc.managed g hg
  | @kfreeFrame m held f hf =>
    obtain ⟨i, hi, rfl⟩ := hc.managed f hf
    constructor
    · intro j hj
      rw [hr.kfreeFrame_frame hi, setPageframeFree, isFree_update hr.start_le (by omega) (by omega),
        Set.mem_sdiff, Set.mem_singleton_iff]
      by_cases hij : j = i
      · simp [hij]
      · rw [if_neg hij, hc.flagged j hj, and_iff_left (fun he => hij (hr.frame_injective he))]
    · exact fun g hg => hc.managed g hg.1
  | @write m held x b hx =>
    exact ⟨fun j hj => by rw [isFree_write hx hj]; exact hc.flagged j hj, hc.managed⟩

lemma Tracks.run {img : Image} {limit : ℕ} (hr : Room img) (hl : numFrames img ≤ limit) {m₀ m : Memory}
    {held : Set ℕ} (h : Run img limit (fun _ x => ¬ FlagByte img x) m₀ m held) : Tracks img m held := by
  have hinit : Tracks img (physicalAllocatorInit img m₀).1 ∅ :=
    ⟨fun j hj => by simp [isFree_init m₀ hj], fun f hf => hf.elim⟩
  suffices hh : ∀ c, ReflTransGen (Step img limit fun _ x => ¬ FlagByte img x)
      ((physicalAllocatorInit img m₀).1, ∅) c → Tracks img c.1 c.2 from hh _ h
  intro c hc
  induction hc with
  | refl => exact hinit
  | tail _ hs ih => exact ih.step hr hl hs

lemma Run.kallocFrame {img : Image} {limit : ℕ} (hr : Room img) (hl : numFrames img ≤ limit) {m₀ m : Memory}
    {held : Set ℕ} (h : Run img limit (fun _ x => ¬ FlagByte img x) m₀ m held) {i : ℕ} (hi : i < numFrames img)
    (hfree : frame img i ∉ held) (hlow : ∀ j < i, frame img j ∈ held) :
    ∃ m', Run img limit (fun _ x => ¬ FlagByte img x) m₀ m' (insert (frame img i) held) := by
  have ht := Tracks.run hr hl h
  have hf : isFree m (flag img i) = true := by
    rw [← Bool.not_eq_false, ht.flagged i hi]
    exact hfree
  obtain ⟨k, hk, hfk, hmin, he⟩ := hr.kallocFrame_eq hl ⟨i, hi, hf⟩
  rcases Nat.lt_trichotomy k i with hki | rfl | hki
  · rw [(ht.flagged k hk).mpr (hlow k hki)] at hfk
    cases hfk
  · exact ⟨_, h.tail (.kallocFrame ⟨k, hi, hf⟩ he)⟩
  · rw [hmin i hki] at hf
    cases hf

theorem kallocFrame_runs (img : Image) (hr : Room img) (limit : ℕ) (hl : numFrames img ≤ limit)
    (m₀ m : Memory) (held : Set ℕ) (h : Run img limit (fun _ x => ¬ FlagByte img x) m₀ m held) :
    (∀ i < numFrames img, isFree m (flag img i) = false ↔ frame img i ∈ held) ∧
    (∀ f ∈ held, ∃ i < numFrames img, f = frame img i) ∧
    ((∃ i < numFrames img, isFree m (flag img i) = true) →
      ∃ f m', kallocFrame limit m (placed img) = some (f, m', placed img) ∧
        (∃ i < numFrames img, f = frame img i ∧ isFree m (flag img i) = true ∧
          ∀ j < i, isFree m (flag img j) = false) ∧
        f % 4096 = 0 ∧ img.physicalHeapStart ≤ f ∧ f + 4096 ≤ img.physicalMemoryEnd ∧ f ∉ held ∧
        kfreeFrame m' (placed img) f = m) := by
  have ht := Tracks.run hr hl h
  refine ⟨ht.flagged, ht.managed, fun hfree => ?_⟩
  obtain ⟨i, hi, hf, hmin, he⟩ := hr.kallocFrame_eq hl hfree
  obtain ⟨ha, hlo, hhi⟩ := hr.frame_bounds hi
  refine ⟨_, _, he, ⟨i, hi, rfl, hf, hmin⟩, ha, hlo, hhi, ?_, hr.kfreeFrame_kallocFrame hi hf⟩
  rw [← ht.flagged i hi, hf]
  simp

def unalignedImage : Image := ⟨0x80001234, 2 ^ 32⟩

/-- Two frames are handed out and the first one is given back: the lowest free frame is that one again. -/
theorem kallocFrame_runs_given_back : ∃ m m',
    Run unalignedImage 524278 (fun _ x => ¬ FlagByte unalignedImage x) (fun _ => 7) m {0x8000b000} ∧
    kallocFrame 524278 m (placed unalignedImage) = some (0x8000a000, m', placed unalignedImage) ∧
    kfreeFrame m' (placed unalignedImage) 0x8000a000 = m := by
  have hr : Room unalignedImage := ⟨by decide, by decide, by decide⟩
  have hn : numFrames unalignedImage = 524278 := by decide
  have hf₀ : frame unalignedImage 0 = 0x8000a000 := by decide
  have hf₁ : frame unalignedImage 1 = 0x8000b000 := by decide
  have hlow : 0 < numFrames unalignedImage ∧ 1 < numFrames unalignedImage := by
    rw [hn]
    decide
  obtain ⟨m₁, h₁⟩ := Run.kallocFrame hr hn.le (.refl : Run _ _ _ (fun _ => 7) _ ∅) hlow.1 (Set.notMem_empty _)
    fun j hj => absurd hj (Nat.not_lt_zero j)
  obtain ⟨m₂, h₂⟩ := Run.kallocFrame hr hn.le h₁ hlow.2 (by rw [hf₀, hf₁]; simp)
    fun j hj => by simp [Nat.lt_one_iff.mp hj]
  have h₃ := h₂.tail (.kfreeFrame (Set.mem_insert_of_mem _ (Set.mem_insert _ _)))
  have hheld : insert (frame unalignedImage 1) (insert (frame unalignedImage 0) ∅) \ {frame unalignedImage 0} =
      ({0x8000b000} : Set ℕ) := by
    rw [hf₀, hf₁]
    ext f
    simp
  rw [hheld] at h₃
  generalize kfreeFrame m₂ (placed unalignedImage) (frame unalignedImage 0) = m at h₃
  obtain ⟨hflag, _, hnext⟩ := kallocFrame_runs _ hr 524278 hn.le _ _ _ h₃
  have hfree : isFree m (flag unalignedImage 0) = true := by
    rw [← Bool.not_eq_false, hflag 0 hlow.1, hf₀]
    decide
  obtain ⟨f, m', hk, ⟨i, _, rfl, _, hmin⟩, _, _, _, _, hback⟩ := hnext ⟨0, hlow.1, hfree⟩
  obtain rfl : i = 0 := by
    by_contra hi
    rw [hmin 0 (Nat.pos_of_ne_zero hi)] at hfree
    cases hfree
  rw [hf₀] at hk hback
  exact ⟨m, m', h₃, hk, hback⟩

/-- No frame that is handed out shares a byte with the flags, so no owner of a frame can change
whether a frame counts as free. -/
def MetadataApart (img : Image) : Prop :=
  ∀ limit m₀ m held, Run img limit (fun held x => ∃ f ∈ held, f ≤ x ∧ x < f + frameSize) m₀ m held →
    ∀ f m' a, kallocFrame limit m (placed img) = some (f, m', a) → ∀ x, f ≤ x → x < f + frameSize →
      ¬ FlagByte img x ∧ ∀ b, ∀ i < numFrames img,
        isFree (Function.update m' x b) (flag img i) = isFree m' (flag img i)

lemma metadata_apart {img : Image} (h : img.physicalHeapStart ≤ 2 ^ 32)
    (hn : numFrames img ≤ framesForManaging * frameSize) : MetadataApart img := by
  intro limit m₀ m held _ f m' a hk x hx hx'
  obtain ⟨⟨flags, index⟩, _, hf⟩ := Option.map_eq_some_iff.mp hk
  have hflag : ¬ FlagByte img x := by
    rintro ⟨i, hi, rfl⟩
    obtain ⟨rfl, _⟩ := Prod.mk.inj hf
    rw [physical_flag h (by simp only [framesForManaging, frameSize] at hn; omega)] at hx
    simp only [placed_eq h, alignedStart, framesForManaging, frameSize] at hx hn
    omega
  exact ⟨hflag, fun b i hi => isFree_write hflag hi⟩

lemma kallocFrame_first {img : Image} (h : img.physicalHeapStart ≤ 2 ^ 32) {m : Memory}
    (hf : isFree m (flag img 0) = true) : kallocFrame 1 m (placed img) =
      some (frame img 0, setPageframeAllocated m (flag img 0), placed img) := by
  have hb : (placed img).firstFrameAddress + 4096 * 1 < 2 ^ 64 := by
    simp only [placed_eq h, alignedStart]
    omega
  obtain ⟨i, hi, _, _, hk⟩ := kallocFrame_spec le_rfl (by norm_num) hb ⟨0, Nat.one_pos, hf⟩
  obtain rfl : i = 0 := Nat.lt_one_iff.mp hi
  exact hk

lemma metadata_overlap {img : Image} (h : img.physicalHeapStart ≤ 2 ^ 32)
    (hn : framesForManaging * frameSize < numFrames img) : ¬ MetadataApart img := by
  intro hm
  have hk := kallocFrame_first h (isFree_init (fun _ => 0) (Nat.zero_lt_of_lt hn))
  have hx := (hm 1 (fun _ => 0) _ ∅ ReflTransGen.refl _ _ _ hk (frame img 0) le_rfl (by simp [frameSize])).1
  refine hx ⟨framesForManaging * frameSize, hn, ?_⟩
  rw [physical_flag h (by decide), frame_eq h]
  simp only [framesForManaging, frameSize]

lemma numFrames_le_reserved_iff {H : ℕ} (h : H ≤ 2 ^ 32) :
    numFrames ⟨H, 2 ^ 32⟩ ≤ framesForManaging * frameSize ↔
      8 ≤ (2 ^ 32 - H) / 4096 ∧ (2 ^ 32 - H) / 4096 ≤ 8 + 8 * 4096 := by
  simp only [numFrames, Image.physicalHeapSize, frameSize, framesForManaging]
  rw [Int.tdiv_eq_ediv_of_nonneg (by omega)]
  omega

theorem metadataApart_iff (H : ℕ) (h : H ≤ 2 ^ 32) :
    MetadataApart ⟨H, 2 ^ 32⟩ ↔ 8 ≤ (2 ^ 32 - H) / 4096 ∧ (2 ^ 32 - H) / 4096 ≤ 8 + 8 * 4096 := by
  rw [← numFrames_le_reserved_iff h]
  constructor
  · intro hm
    by_contra hn
    exact metadata_overlap h (Nat.lt_of_not_le hn) hm
  · exact metadata_apart h

theorem metadataApart_iff_large_image : MetadataApart ⟨0xFF000000, 2 ^ 32⟩ :=
  (metadataApart_iff 0xFF000000 (by decide)).mpr (by decide)

theorem metadata_overlaps_first_frame : ¬ MetadataApart ⟨0x80040000, 2 ^ 32⟩ := by
  have hn : numFrames ⟨0x80040000, 2 ^ 32⟩ = 524216 := by decide
  apply metadata_overlap (by norm_num)
  rw [hn]
  norm_num

end TetraOS.Memory.PhysicalAllocator
