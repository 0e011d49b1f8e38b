import TetraOS.Memory.Machine

/-! The physical frame allocator (kernel/memory/physical_allocator.cpp): one flag byte for each frame,
scanned from the start. The flag bytes are reached through the direct map. -/

namespace TetraOS.Memory.PhysicalAllocator

open Library.ByteMemory

structure Frames where
  managedFramesAddressStart : ℕ
  firstFrameAddress : ℕ

def getFrameNumber (a : Frames) (frameAddress : ℕ) : ℕ :=
  (frameAddress + (2 ^ 64 - a.firstFrameAddress)) % 2 ^ 64 / frameSize % 2 ^ 32

def setPageframeFree (m : Memory) (flags : ℕ) : Memory := Function.update m (physical flags) 0
def setPageframeAllocated (m : Memory) (flags : ℕ) : Memory := Function.update m (physical flags) 1
def isFree (m : Memory) (flags : ℕ) : Bool := m (physical flags) == 0

def allignAddress (address num : ℕ) : ℕ := (address + num - 1) % 2 ^ 64 &&& (2 ^ 64 - 1 - (num - 1))

def numFrames (img : Image) : ℕ :=
  ((img.physicalHeapSize.tdiv frameSize - framesForManaging) % 2 ^ 32).toNat

def clearFlags (m : Memory) (start : ℕ) : ℕ → Memory
  | 0 => m
  | i + 1 => setPageframeFree (clearFlags m start i) (start + i)

def placed (img : Image) : Frames where
  managedFramesAddressStart := allignAddress img.bssEnd frameSize
  firstFrameAddress := allignAddress (img.physicalHeapStart + framesForManaging * frameSize) frameSize

def physicalAllocatorInit (img : Image) (m : Memory) : Memory × Frames :=
  (clearFlags m (placed img).managedFramesAddressStart (numFrames img), placed img)

-- The loop of `kalloc_frame`; `limit` bounds the number of flag bytes it inspects.
def findFree (m : Memory) : ℕ → ℕ → ℕ → Option (ℕ × ℕ)
  | 0, _, _ => none
  | limit + 1, flags, index =>
    if isFree m flags then some (flags, index) else findFree m limit (flags + 1) ((index + 1) % 2 ^ 32)

def kallocFrame (limit : ℕ) (m : Memory) (a : Frames) : Option (ℕ × Memory × Frames) :=
  (findFree m limit a.managedFramesAddressStart 0).map fun (flags, index) =>
    ((a.firstFrameAddress + index * frameSize % 2 ^ 32) % 2 ^ 64, setPageframeAllocated m flags, a)

def kfreeFrame (m : Memory) (a : Frames) (frame : ℕ) : Memory :=
  setPageframeFree m (a.managedFramesAddressStart + getFrameNumber a frame)

lemma and_shiftLeft_mask (x m k : ℕ) : x &&& m <<< k = (x >>> k &&& m) <<< k := by
  apply Nat.eq_of_testBit_eq
  intro i
  by_cases hi : k ≤ i
  · simp [Nat.testBit_shiftLeft, Nat.testBit_shiftRight, hi, Nat.add_sub_cancel' hi]
  · simp [Nat.testBit_shiftLeft, hi]

lemma allignAddress_eq {a : ℕ} (h : a + 4095 < 2 ^ 64) :
    allignAddress a 4096 = (a + 4095) / 4096 * 4096 := by
  have hq : (a + 4095) / 4096 % 2 ^ 52 = (a + 4095) / 4096 := Nat.mod_eq_of_lt (by omega)
  calc allignAddress a 4096 = (a + 4095) &&& (2 ^ 52 - 1) <<< 12 := by
        rw [allignAddress, show a + 4096 - 1 = a + 4095 from rfl, Nat.mod_eq_of_lt h]
        rfl
    _ = ((a + 4095) / 4096 % 2 ^ 52) <<< 12 := by
        rw [and_shiftLeft_mask, Nat.and_two_pow_sub_one_eq_mod, Nat.shiftRight_eq_div_pow]
    _ = (a + 4095) / 4096 * 4096 := by rw [hq, Nat.shiftLeft_eq]

lemma clearFlags_apply (m : Memory) (start n x : ℕ) :
    clearFlags m start n x = if ∃ i < n, x = physical (start + i) then 0 else m x := by
  induction n with
  | zero => simp [clearFlags]
  | succ n ih =>
    rw [clearFlags, setPageframeFree, Function.update_apply, ih]
    by_cases hx : x = physical (start + n)
    · rw [if_pos hx, if_pos ⟨n, by omega, hx⟩]
    · rw [if_neg hx]
      congr 1
      apply propext
      constructor
      · rintro ⟨i, hi, rfl⟩
        exact ⟨i, by omega, rfl⟩
      · rintro ⟨i, hi, rfl⟩
        exact ⟨i, lt_of_le_of_ne (by omega) (fun he => hx (by rw [he])), rfl⟩

lemma findFree_some {m : Memory} {limit start k flags index : ℕ} (hk : k + limit ≤ 2 ^ 32)
    (h : findFree m limit start k = some (flags, index)) :
    ∃ i < limit, flags = start + i ∧ index = k + i ∧ isFree m (start + i) = true ∧
      ∀ j < i, isFree m (start + j) = false := by
  induction limit generalizing start k with
  | zero => cases h
  | succ limit ih =>
    rw [findFree] at h
    split at h
    · rename_i hf
      obtain ⟨rfl, rfl⟩ := Prod.mk.inj (Option.some.inj h)
      exact ⟨0, by omega, rfl, rfl, hf, fun j hj => absurd hj (Nat.not_lt_zero j)⟩
    · rename_i hf
      rcases Nat.eq_zero_or_pos limit with rfl | hl
      · cases h
      · rw [Nat.mod_eq_of_lt (by omega)] at h
        obtain ⟨i, hi, rfl, rfl, hfree, hmin⟩ := ih (by omega) h
        refine ⟨i + 1, by omega, by omega, by omega, ?_, ?_⟩
        · rwa [show start + (i + 1) = start + 1 + i by omega]
        · intro j hj
          cases j with
          | zero => simpa using hf
          | succ j => rw [show start + (j + 1) = start + 1 + j by omega]; exact hmin j (by omega)

lemma findFree_isSome {m : Memory} {limit start k i : ℕ} (hi : i < limit) (hf : isFree m (start + i) = true) :
    (findFree m limit start k).isSome := by
  induction limit generalizing start k i with
  | zero => omega
  | succ limit ih =>
    rw [findFree]
    split
    · rfl
    · rename_i hn
      cases i with
      | zero => exact absurd hf hn
      | succ i => exact ih (by omega : i < limit) (by rwa [show start + 1 + i = start + (i + 1) by omega])

lemma findFree_mono {m : Memory} {limit limit' start k : ℕ} {r : ℕ × ℕ} (hl : limit ≤ limit')
    (h : findFree m limit start k = some r) : findFree m limit' start k = some r := by
  induction limit generalizing limit' start k with
  | zero => cases h
  | succ limit ih =>
    obtain ⟨l, rfl⟩ : ∃ l, limit' = l + 1 := ⟨limit' - 1, by omega⟩
    rw [findFree] at h ⊢
    split at h
    · rename_i hf; rw [if_pos hf, h]
    · rename_i hf; rw [if_neg hf, ih (by omega) h]

end TetraOS.Memory.PhysicalAllocator
