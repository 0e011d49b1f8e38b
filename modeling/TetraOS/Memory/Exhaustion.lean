import TetraOS.Memory.FlagSource

/-! `kalloc_frame` when no frame is left. Its loop ends at a free flag only, so it goes on behind the flags. -/

namespace TetraOS.Memory.PhysicalAllocator

open Library.ByteMemory Relation

def inspected (m : Memory) : (limit flags : ℕ) → List ℕ
  | 0, _ => []
  | limit + 1, flags => physical flags :: if isFree m flags then [] else inspected m limit (flags + 1)

/-- A call looks at flags only and changes flags only; it returns a frame of the memory, or null with the flags as they
were. -/
structure SafeCall (img : Image) (m : Memory) : Prop where
  inspects : ∀ limit, ∀ x ∈ inspected m limit (placed img).managedFramesAddressStart, FlagByte img x
  answers : ∃ limit f m', kallocFrame limit m (placed img) = some (f, m', placed img) ∧
    (∀ x, ¬ FlagByte img x → m' x = m x) ∧
    (f ≠ 0 ∧ f + frameSize ≤ img.physicalMemoryEnd ∨ f = 0 ∧ ∀ x, FlagByte img x → m' x = m x)

section Inspected

variable {m : Memory} {img : Image}

lemma mem_inspected {limit start x : ℕ} (h : x ∈ inspected m limit start) :
    ∃ i, x = physical (start + i) ∧ ∀ j < i, isFree m (start + j) = false := by
  induction limit generalizing start with
  | zero => cases h
  | succ limit ih =>
    rw [inspected, List.mem_cons] at h
    rcases h with rfl | h
    · exact ⟨0, rfl, fun j hj => absurd hj (Nat.not_lt_zero j)⟩
    · split at h
      · cases h
      · rename_i hn
        obtain ⟨i, rfl, hmin⟩ := ih h
        refine ⟨i + 1, congrArg physical (by omega), fun j hj => ?_⟩
        cases j with
        | zero => exact Bool.eq_false_of_not_eq_true hn
        | succ j =>
          have hh := hmin j (by omega)
          rwa [show start + 1 + j = start + (j + 1) by omega] at hh

lemma mem_inspected_of_taken {n start : ℕ} (h : ∀ j < n, isFree m (start + j) = false) :
    physical (start + n) ∈ inspected m (n + 1) start := by
  induction n generalizing start with
  | zero => exact List.mem_cons_self
  | succ n ih =>
    have hfirst : isFree m start = false := h 0 (by omega)
    have hrest : ∀ j < n, isFree m (start + 1 + j) = false := by
      intro j hj
      have hh := h (j + 1) (by omega)
      rwa [show start + (j + 1) = start + 1 + j by omega] at hh
    have hin := ih hrest
    rw [show start + 1 + n = start + (n + 1) by omega] at hin
    rw [inspected, hfirst]
    exact List.mem_cons_of_mem _ hin

lemma Room.not_flagByte (hr : Room img) : ¬ FlagByte img (physical (flag img (numFrames img))) := by
  rintro ⟨i, hi, heq⟩
  have hle := hr.numFrames_le
  rw [physical_flag hr.start_le (by omega), physical_flag hr.start_le (by omega)] at heq
  omega

lemma safeCall_of_free (hr : Room img) (h : ∃ i < numFrames img, isFree m (flag img i) = true) : SafeCall img m := by
  have hn := hr.numFrames_le
  constructor
  · intro limit x hx
    obtain ⟨k, hk, hfree⟩ := h
    obtain ⟨i, rfl, hmin⟩ := mem_inspected hx
    refine ⟨i, ?_, rfl⟩
    by_contra hle
    have htaken : isFree m (flag img k) = false := hmin k (by omega)
    rw [hfree] at htaken
    cases htaken
  · obtain ⟨i, hi, _, _, he⟩ := hr.kallocFrame_eq le_rfl h
    obtain ⟨_, hlow, hhigh⟩ := hr.frame_bounds hi
    have hpos : frame img i ≠ 0 := by
      rw [frame_eq hr.start_le]
      omega
    refine ⟨_, _, _, he, fun x hx => ?_, Or.inl ⟨hpos, hhigh⟩⟩
    apply Function.update_of_ne
    rintro rfl
    exact hx ⟨i, hi, rfl⟩

lemma not_safeCall_of_taken (hr : Room img) (h : ∀ i < numFrames img, isFree m (flag img i) = false) :
    ¬ SafeCall img m := fun hs =>
  hr.not_flagByte (hs.inspects (numFrames img + 1) _ (mem_inspected_of_taken h))

end Inspected

section Count

variable {img : Image} {m : Memory} {held : Set ℕ} (hr : Room img) (ht : Tracks img m held)
include hr ht

omit hr in
lemma Tracks.subset : held ⊆ (Finset.range (numFrames img)).image (frame img) := by
  intro f hf
  obtain ⟨i, hi, rfl⟩ := ht.managed f hf
  exact Finset.mem_coe.mpr (Finset.mem_image_of_mem _ (Finset.mem_range.mpr hi))

lemma Tracks.ncard_lt_iff : held.ncard < numFrames img ↔ ∃ i < numFrames img, isFree m (flag img i) = true := by
  have hcard : ((Finset.range (numFrames img)).image (frame img)).card = numFrames img := by
    rw [Finset.card_image_of_injective _ fun _ _ h => hr.frame_injective h, Finset.card_range]
  have hfree : ∀ i < numFrames img, isFree m (flag img i) = true ↔ frame img i ∉ held := by
    intro i hi
    rw [← ht.flagged i hi, Bool.not_eq_false]
  constructor
  · intro hlt
    by_contra hnone
    push Not at hnone
    have hall : held = (Finset.range (numFrames img)).image (frame img) := by
      refine (ht.subset).antisymm fun f hf => ?_
      obtain ⟨i, hi, rfl⟩ := Finset.mem_image.mp (Finset.mem_coe.mp hf)
      rw [Finset.mem_range] at hi
      by_contra hnot
      exact hnone i hi ((hfree i hi).mpr hnot)
    rw [hall, Set.ncard_coe_finset, hcard] at hlt
    exact lt_irrefl _ hlt
  · rintro ⟨i, hi, hf⟩
    have hin : frame img i ∈ ((Finset.range (numFrames img)).image (frame img) : Set ℕ) :=
      Finset.mem_coe.mpr (Finset.mem_image_of_mem _ (Finset.mem_range.mpr hi))
    have hlt := Set.ncard_lt_ncard ((Set.ssubset_iff_of_subset (ht.subset)).mpr ⟨_, hin, (hfree i hi).mp hf⟩)
      (Finset.finite_toSet _)
    rwa [Set.ncard_coe_finset, hcard] at hlt

end Count

/-- In every state that calls of `kalloc_frame`, calls of `kfree_frame` and writes besides the flags lead to, the next
call is safe exactly if not all frames are handed out. -/
theorem safeCall_iff (img : Image) (hr : Room img) (limit : ℕ) (hl : numFrames img ≤ limit) (m₀ m : Memory)
    (held : Set ℕ) (h : Run img limit (fun _ x => ¬ FlagByte img x) m₀ m held) :
    SafeCall img m ↔ held.ncard < numFrames img := by
  rw [(Tracks.run hr hl h).ncard_lt_iff hr]
  constructor
  · intro hs
    by_contra hnone
    push Not at hnone
    exact not_safeCall_of_taken hr (fun i hi => Bool.eq_false_of_not_eq_true (hnone i hi)) hs
  · exact safeCall_of_free hr

theorem safeCall_first : SafeCall megabyteImage (physicalAllocatorInit megabyteImage fun _ => 0).1 := by
  have hn : numFrames megabyteImage = 524024 := by decide
  refine (safeCall_iff megabyteImage megabyteImage_room 524024 hn.le (fun _ => 0) _ ∅ ReflTransGen.refl).mpr ?_
  rw [Set.ncard_empty, hn]
  decide

lemma run_first {img : Image} (hr : Room img) (Writes : Set ℕ → ℕ → Prop) (m₀ : Memory) {n : ℕ}
    (hn : n ≤ numFrames img) : ∃ m held, Run img (numFrames img) Writes m₀ m held ∧
      ∀ i < numFrames img, isFree m (flag img i) = decide (n ≤ i) := by
  have hle := hr.numFrames_le
  induction n with
  | zero => exact ⟨_, ∅, ReflTransGen.refl, fun i hi => by rw [isFree_init m₀ hi]; simp⟩
  | succ n ih =>
    obtain ⟨m, held, hrun, hflags⟩ := ih (by omega)
    have hfree : ∃ i < numFrames img, isFree m (flag img i) = true := ⟨n, hn, by rw [hflags n hn]; simp⟩
    obtain ⟨i, hi, hf, hmin, he⟩ := hr.kallocFrame_eq le_rfl hfree
    rw [hflags i hi, decide_eq_true_eq] at hf
    obtain rfl : i = n := by
      by_contra hne
      have htaken := hmin n (by omega)
      rw [hflags n hn] at htaken
      simp at htaken
    refine ⟨_, _, hrun.tail (.kallocFrame hfree he), fun j hj => ?_⟩
    rw [setPageframeAllocated, isFree_update hr.start_le (by omega) (by omega), hflags j hj]
    by_cases hji : j = i
    · simp [hji]
    · rw [if_neg hji]
      exact decide_eq_decide.mpr (by omega)

theorem not_safeCall_exhausted : ∃ m held, Run megabyteImage (numFrames megabyteImage) (fun _ _ => False)
    (fun _ => 0) m held ∧ ¬ SafeCall megabyteImage m := by
  obtain ⟨m, held, hrun, hflags⟩ := run_first megabyteImage_room (fun _ _ => False) (fun _ => 0) le_rfl
  exact ⟨m, held, hrun, not_safeCall_of_taken megabyteImage_room fun i hi => by
    rw [hflags i hi]
    exact decide_eq_false (by omega)⟩

end TetraOS.Memory.PhysicalAllocator
