import TetraOS.Memory.FrameRuns
import TetraOS.Memory.PagingInit

/-! The flag allocator as a source of frames, as long as it stays inside the flag bytes reserved for it.
Nobody frees frames here, so the frames in use are always the first ones. -/

namespace TetraOS.Memory.PhysicalAllocator

open Library.ByteMemory

def reserved (img : Image) : ℕ := min (framesForManaging * frameSize) (numFrames img)

structure Used (img : Image) (m : Memory) (used : ℕ) : Prop where
  le : used ≤ reserved img
  free : ∀ i < reserved img, isFree m (flag img i) = true ↔ used ≤ i

def framesLeft (img : Image) (m : Memory) : ℕ :=
  ((Finset.range (reserved img)).filter fun i => isFree m (flag img i) = true).card

def ReservedByte (img : Image) (x : ℕ) : Prop := ∃ i < reserved img, x = physical (flag img i)

section Reserved

variable {img : Image}

lemma reserved_le (img : Image) : reserved img ≤ 32768 := min_le_left _ _

lemma reserved_le_numFrames (img : Image) : reserved img ≤ numFrames img := min_le_right _ _

lemma Used.framesLeft_eq {m : Memory} {u : ℕ} (h : Used img m u) : framesLeft img m = reserved img - u := by
  have hset : (Finset.range (reserved img)).filter (fun i => isFree m (flag img i) = true) =
      Finset.Ico u (reserved img) := by
    ext i
    rw [Finset.mem_filter, Finset.mem_range, Finset.mem_Ico]
    constructor
    · rintro ⟨hi, hf⟩
      exact ⟨(h.free i hi).mp hf, hi⟩
    · rintro ⟨hu, hi⟩
      exact ⟨hi, (h.free i hi).mpr hu⟩
  rw [framesLeft, hset, Nat.card_Ico]

lemma isFree_congr {m m' : Memory} (h : ∀ x, ReservedByte img x → m' x = m x) {i : ℕ} (hi : i < reserved img) :
    isFree m' (flag img i) = isFree m (flag img i) := by
  rw [isFree, isFree, h _ ⟨i, hi, rfl⟩]

lemma Used.congr {m m' : Memory} {u : ℕ} (hu : Used img m u) (h : ∀ x, ReservedByte img x → m' x = m x) :
    Used img m' u :=
  ⟨hu.le, fun i hi => by rw [isFree_congr h hi]; exact hu.free i hi⟩

lemma Used.init (m : Memory) : Used img (physicalAllocatorInit img m).1 0 :=
  ⟨Nat.zero_le _, fun i hi => by simp [isFree_init m (hi.trans_le (reserved_le_numFrames img))]⟩

lemma frame_page (h : img.physicalHeapStart ≤ 2 ^ 32) (i : ℕ) : frame img i = 4096 * (frame img i / 4096) := by
  rw [frame_eq h, alignedStart]
  omega

lemma kallocFrame_isSome {m : Memory} {u : ℕ} (hu : Used img m u) (hl : u < reserved img) :
    (kallocFrame (reserved img) m (placed img)).isSome := by
  rw [kallocFrame, Option.isSome_map]
  exact findFree_isSome hl ((hu.free u hl).mpr le_rfl)

lemma Used.kallocFrame (h : img.physicalHeapStart ≤ 2 ^ 32) {m : Memory} {u : ℕ} (hu : Used img m u)
    {f : ℕ} {m' : Memory} {a : Frames} (hk : kallocFrame (reserved img) m (placed img) = some (f, m', a)) :
    u < reserved img ∧ f = frame img u ∧ m' = setPageframeAllocated m (flag img u) ∧ a = placed img ∧
      Used img m' (u + 1) := by
  have hr := reserved_le img
  obtain ⟨⟨flags, index⟩, hf, heq⟩ := Option.map_eq_some_iff.mp hk
  obtain ⟨i, hi, rfl, rfl, hfree, hmin⟩ := findFree_some (by omega) hf
  have hiu : i = u := by
    have hle := (hu.free i hi).mp hfree
    by_contra hne
    have hlt : u < i := by omega
    have := hmin u hlt
    rw [← flag, (hu.free u (hlt.trans hi)).mpr le_rfl] at this
    cases this
  subst hiu
  simp only [Prod.mk.injEq] at heq
  obtain ⟨rfl, rfl, rfl⟩ := heq
  refine ⟨hi, ?_, rfl, rfl, hi, ?_⟩
  · rw [frame_eq h]
    simp only [placed_eq h, frameSize, alignedStart]
    omega
  · intro j hj
    rw [setPageframeAllocated, ← flag, isFree_update h (by omega) (by omega)]
    by_cases hji : j = i
    · simp [hji]
    · rw [if_neg hji, hu.free j hj]
      omega

end Reserved

section Source

variable {img : Image} (hr : Room img) {m m' : Memory} {a a' : Frames} {n : ℕ}

def FreeFrame (img : Image) (m : Memory) (n : ℕ) : Prop :=
  ∃ i < reserved img, frame img i = 4096 * n ∧ isFree m (flag img i) = true

lemma FreeFrame.congr (h : ∀ x, ReservedByte img x → m' x = m x) (hf : FreeFrame img m' n) : FreeFrame img m n := by
  obtain ⟨i, hi, hfi, hfree⟩ := hf
  rw [isFree_congr h hi] at hfree
  exact ⟨i, hi, hfi, hfree⟩

include hr

lemma FreeFrame.low (hf : FreeFrame img m n) : n < 2 ^ 20 := by
  obtain ⟨i, hi, hfi, _⟩ := hf
  have hb := (hr.frame_bounds (hi.trans_le (reserved_le_numFrames img))).2.2
  have := hr.low
  omega

lemma FreeFrame.apart {x : ℕ} (hf : FreeFrame img m n) (hx : ReservedByte img x) : x / 4096 ≠ n := by
  obtain ⟨i, hi, hfi, _⟩ := hf
  obtain ⟨j, hj, rfl⟩ := hx
  have hle := reserved_le img
  rw [physical_flag hr.start_le (by omega), alignedStart]
  rw [frame_eq hr.start_le, alignedStart] at hfi
  omega

lemma Used.step {u f : ℕ} (hu : Used img m u)
    (hk : PhysicalAllocator.kallocFrame (reserved img) m (placed img) = some (f, m', a')) :
    ∃ n, f = 4096 * n ∧ FreeFrame img m n ∧ ¬ FreeFrame img m' n ∧ (∀ k, FreeFrame img m' k → FreeFrame img m k) ∧
      (a' = placed img ∧ ∃ u, Used img m' u) ∧ (∀ x, ¬ ReservedByte img x → m' x = m x) ∧
      framesLeft img m = framesLeft img m' + 1 := by
  obtain ⟨hlt, rfl, rfl, rfl, hu'⟩ := hu.kallocFrame hr.start_le hk
  refine ⟨frame img u / 4096, frame_page hr.start_le u,
    ⟨u, hlt, frame_page hr.start_le u, (hu.free u hlt).mpr le_rfl⟩, ?_, ?_, ⟨rfl, u + 1, hu'⟩, ?_, ?_⟩
  · rintro ⟨i, hi, hfi, hfree⟩
    obtain rfl := hr.frame_injective (hfi.trans (frame_page hr.start_le u).symm)
    have hle := (hu'.free i hi).mp hfree
    omega
  · rintro n ⟨i, hi, hfi, hfree⟩
    have hle := (hu'.free i hi).mp hfree
    exact ⟨i, hi, hfi, (hu.free i hi).mpr (by omega)⟩
  · intro x hx
    rw [setPageframeAllocated, Function.update_of_ne]
    rintro rfl
    exact hx ⟨u, hlt, rfl⟩
  · rw [hu.framesLeft_eq, hu'.framesLeft_eq]
    omega

omit hr

lemma Used.isSome {u : ℕ} (hu : Used img m u) (hl : 0 < framesLeft img m) :
    (PhysicalAllocator.kallocFrame (reserved img) m (placed img)).isSome := by
  rw [hu.framesLeft_eq] at hl
  exact kallocFrame_isSome hu (by omega)

end Source

def source (img : Image) (hr : Room img) : FrameSource Frames where
  kallocFrame := kallocFrame (reserved img)
  Good m a := a = placed img ∧ ∃ u, Used img m u
  Free m _ n := FreeFrame img m n
  Bytes _ x := ReservedByte img x
  left m _ := framesLeft img m
  step := by
    rintro m a f m' a' ⟨rfl, u, hu⟩ hk
    obtain ⟨n, hf, hfree, hnot, hsub, hgood, hmem, hleft⟩ := hu.step hr hk
    exact ⟨n, hf, hfree, hnot, hsub, hgood, hmem, fun _ => Iff.rfl, hleft⟩
  isSome := by
    rintro m a ⟨rfl, u, hu⟩ hl
    exact hu.isSome hl
  low := fun _ hf => hf.low hr
  apart := fun _ hf hx => hf.apart hr hx
  local_good := by
    rintro m m' a ⟨rfl, u, hu⟩ h
    exact ⟨rfl, u, hu.congr h⟩
  local_free := fun _ h => ⟨FreeFrame.congr h, FreeFrame.congr fun x hx => (h x hx).symm⟩
  local_left := by
    rintro m m' a ⟨rfl, u, hu⟩ h
    rw [hu.framesLeft_eq, (hu.congr h).framesLeft_eq]

lemma source_left (img : Image) (hr : Room img) (m : Memory) (a : Frames) :
    (source img hr).left m a = framesLeft img m := rfl

lemma used_of_left {img : Image} {hr : Room img} {m : Memory} {a : Frames} {u : ℕ} (hg : (source img hr).Good m a)
    (hl : (source img hr).left m a + u = reserved img) : Used img m u := by
  obtain ⟨_, v, hv⟩ := hg
  have hle := hv.le
  have heq : framesLeft img m = reserved img - v := hv.framesLeft_eq
  rw [source_left] at hl
  obtain rfl : v = u := by omega
  exact hv

lemma kallocFrame_used {img : Image} {hr : Room img} {s s' : State Frames} {f u : ℕ}
    (hg : (source img hr).Good s.mem s.frames) (hu : Used img s.mem u)
    (hk : s.kallocFrame (source img hr).kallocFrame = some (f, s')) : f = frame img u := by
  obtain ⟨⟨f', m', a'⟩, hk', heq⟩ := Option.map_eq_some_iff.mp hk
  change kallocFrame (reserved img) s.mem s.frames = _ at hk'
  rw [hg.1] at hk'
  rw [← (Prod.mk.inj heq).1]
  exact (hu.kallocFrame hr.start_le hk').2.1

def cleared (img : Image) (m : Memory) : State Frames :=
  ⟨(physicalAllocatorInit img m).1, (physicalAllocatorInit img m).2, 0, 0, 0, 0⟩

section Cleared

variable (img : Image) (hr : Room img) (m : Memory)

lemma cleared_good : (source img hr).Good (cleared img m).mem (cleared img m).frames := ⟨rfl, 0, Used.init m⟩

lemma cleared_left : (source img hr).left (cleared img m).mem (cleared img m).frames = reserved img :=
  (Used.init m).framesLeft_eq

variable {m} in
lemma cleared_zero (hm : ∀ x, m x = 0) (t : ℕ) (_ : (source img hr).Free (cleared img m).mem (cleared img m).frames t) :
    Zero (cleared img m).mem (4096 * t) 4096 := by
  intro x _ _
  simp only [cleared, physicalAllocatorInit, clearFlags_apply, hm, ite_self]

end Cleared

def megabyteImage : Image := ⟨0x80100000, 2 ^ 32⟩

lemma megabyteImage_room : Room megabyteImage := ⟨by decide, by decide, by decide⟩

lemma megabyteImage_reserved : reserved megabyteImage = 32768 := by
  have hn : numFrames megabyteImage = 524024 := by decide
  rw [reserved, hn]
  rfl

end TetraOS.Memory.PhysicalAllocator
