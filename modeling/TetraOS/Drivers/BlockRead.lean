import TetraOS.Memory.HeapRuns
import TetraOS.Memory.Copying

/-! Byte reads from the block device (kernel/drivers/virtio/blk.cpp): whole sectors are read into a
temporary buffer, from which the requested bytes are copied. -/

namespace TetraOS.Drivers.BlockRead

open Memory Library.ByteMemory PhysicalAllocator Relation

variable {α : Type}

abbrev ReadBlocks (α : Type) := State α → (sector length buffer : ℕ) → Option (ℤ × State α)

def diskOffset (offset : ℕ) : ℕ := (offset + 512 * 2048) % 2 ^ 64
def tooMuchAtStart (offset : ℕ) : ℕ := diskOffset offset % 512
def tempSize (length : ℕ) : ℕ := 512 * (length / 512 + 1) % 2 ^ 64

def read (k : FrameAlloc α) (readBlocks : ReadBlocks α) (fuel : ℕ) (s : State α) (offset length buffer : ℕ) :
    Option (ℤ × State α) := do
  let (tempBuffer, s) ← kalloc k fuel s (tempSize length)
  let (res, s) ← readBlocks s (diskOffset offset / 512) (tempSize length) tempBuffer
  if res < 0 then some (res, s) else
  let s ← memcpy s buffer (tempBuffer + tooMuchAtStart offset) length
  some (0, s)

abbrev Heap (img : Image) (hr : Room img) (s : State Frames) : Prop := HeapOk (source img hr) Everywhere Everywhere s

structure Fills (img : Image) (hr : Room img) (disk : ℕ → UInt8) (readBlocks : ReadBlocks Frames) : Prop where
  fills : ∀ s sector count buffer, Heap img hr s → heapStart ≤ buffer → buffer + 512 * count ≤ s.freeList →
    sector < 2 ^ 32 → ∃ s', readBlocks s sector (512 * count) buffer = some (0, s') ∧ Heap img hr s' ∧
      s.freeList ≤ s'.freeList ∧ (∀ i < 512 * count, view s' (buffer + i) = disk (512 * sector + i)) ∧
      ∀ x, heapStart ≤ x → x < s.freeList → x < buffer ∨ buffer + 512 * count ≤ x → view s' x = view s x

def Exact (img : Image) (disk : ℕ → UInt8) (readBlocks : ReadBlocks Frames) (fuel : ℕ) (s : State Frames)
    (offset length buffer : ℕ) : Prop :=
  ∃ tempBuffer s₁ s', kalloc (kallocFrame (reserved img)) fuel s (tempSize length) = some (tempBuffer, s₁) ∧
    read (kallocFrame (reserved img)) readBlocks fuel s offset length buffer = some (0, s') ∧
    (∀ i < length, loadByte s' (buffer + i) = some (disk (offset + 512 * 2048 + i))) ∧
    ∀ i < length, tempBuffer ≤ tempBuffer + tooMuchAtStart offset + i ∧
      tempBuffer + tooMuchAtStart offset + i < tempBuffer + tempSize length

section Arithmetic

variable {offset length : ℕ} (h : offset + 512 * 2048 + length < 2 ^ 64)
include h

lemma diskOffset_eq : diskOffset offset = offset + 512 * 2048 := Nat.mod_eq_of_lt (by omega)

lemma tempSize_eq : tempSize length = 512 * (length / 512 + 1) := Nat.mod_eq_of_lt (by omega)

lemma tooMuchAtStart_eq : tooMuchAtStart offset = offset % 512 := by
  rw [tooMuchAtStart, diskOffset_eq h]
  omega

lemma inside_iff : (∀ i < length, tooMuchAtStart offset + i < tempSize length) ↔
    offset % 512 + length % 512 ≤ 512 := by
  rw [tooMuchAtStart_eq h, tempSize_eq h]
  constructor
  · intro hh
    by_cases hl : length = 0
    · omega
    · have := hh (length - 1) (by omega)
      omega
  · intro hh i hi
    omega

end Arithmetic

section Read

variable {img : Image} {hr : Room img} {disk : ℕ → UInt8} {readBlocks : ReadBlocks Frames} {fuel : ℕ}
    {s : State Frames} {offset length buffer : ℕ}

lemma read_exact (hfills : Fills img hr disk readBlocks) (hs : Heap img hr s) (hlow : heapStart ≤ buffer)
    (hhigh : buffer + length ≤ s.freeList) (hdisk : offset + 512 * 2048 + length < 2 ^ 64)
    (hsector : (offset + 512 * 2048) / 512 < 2 ^ 32) {tempBuffer : ℕ} {s₁ : State Frames}
    (hk : kalloc (kallocFrame (reserved img)) fuel s (tempSize length) = some (tempBuffer, s₁))
    (hfit : offset % 512 + length % 512 ≤ 512) : Exact img disk readBlocks fuel s offset length buffer := by
  have hsize := tempSize_eq hdisk
  have htoo := tooMuchAtStart_eq hdisk
  have hoff := diskOffset_eq hdisk
  obtain ⟨h₁, hp, hfl, _⟩ := hs.kalloc (S := source img hr) (by omega) hk
  have hst := hs.start
  obtain ⟨s₂, hs₂, h₂, hmono, hfill, hrest⟩ := hfills.fills s₁ _ (length / 512 + 1) tempBuffer h₁ (by omega)
    (by omega) (hoff ▸ hsector)
  rw [← hsize] at hs₂
  have hsp₂ := h₂.space
  have hin : ∀ x, heapStart ≤ x → x < s₂.freeList → Usable Everywhere Everywhere x ∧ Mapped s₂ x := fun x hx hx' =>
    ⟨h₂.usable (h₂.inHeap hx (by omega)), h₂.mapped x hx (by omega)⟩
  have hdest : ∀ x, buffer ≤ x → x < buffer + length → Usable Everywhere Everywhere x ∧ Mapped s₂ x :=
    fun x hx hx' => hin x (by omega) (by omega)
  have hsrc : ∀ x, tempBuffer + tooMuchAtStart offset ≤ x → x < tempBuffer + tooMuchAtStart offset + length →
      Usable Everywhere Everywhere x ∧ Mapped s₂ x := fun x hx hx' => hin x (by omega) (by omega)
  obtain ⟨s₃, hs₃, hw⟩ := memcpy_eq h₂.tree (fun x hx hx' => (hdest x hx hx').1) (fun x hx hx' => (hdest x hx hx').2)
    (fun x hx hx' => (hsrc x hx hx').1) (fun x hx hx' => (hsrc x hx hx').2) (Or.inr (by omega))
  refine ⟨tempBuffer, s₁, s₃, hk, ?_, ?_, ?_⟩
  · simp only [read, hk, hs₂, hs₃, Option.bind_eq_bind, Option.bind_some, lt_irrefl, if_false]
  · intro i hi
    obtain ⟨hu, hm⟩ := hdest (buffer + i) (by omega) (by omega)
    rw [loadByte_eq hw.tree hu ((hw.same.mapped hu.outside).mpr hm), hw.view _ hu.outside hu.canonical hu.owned,
      patch_inside hi, Nat.add_assoc, hfill _ (by omega)]
    exact congrArg (fun p => some (disk p)) (by omega)
  · intro i hi
    exact ⟨by omega, by omega⟩

lemma read_exact_iff (hfills : Fills img hr disk readBlocks) (hs : Heap img hr s) (hlow : heapStart ≤ buffer)
    (hhigh : buffer + length ≤ s.freeList) (hdisk : offset + 512 * 2048 + length < 2 ^ 64)
    (hsector : (offset + 512 * 2048) / 512 < 2 ^ 32) {pages : ℕ} (hfuel : pages < fuel)
    (hpages : s.freeList + tempSize length + 32 ≤ s.virtualAllocEnd + 4096 * pages)
    (hleft : 4 * pages ≤ framesLeft img s.mem) :
    Exact img disk readBlocks fuel s offset length buffer ↔ offset % 512 + length % 512 ≤ 512 := by
  have hsize := tempSize_eq hdisk
  have hsp := hs.space
  constructor
  · rintro ⟨tempBuffer, _, _, _, _, _, hinside⟩
    rw [← inside_iff hdisk]
    intro i hi
    have := (hinside i hi).2
    omega
  · intro hfit
    have hroom : tempSize length + 32 ≤ s.virtualAllocEnd - s.freeList + 4096 * pages := by omega
    obtain ⟨tempBuffer, s₁, hk⟩ := hs.kalloc_isSome (S := source img hr) (by omega) hroom hfuel hleft
    exact read_exact hfills hs hlow hhigh hdisk hsector hk hfit

end Read

/-- Over every run of the kernel heap, with a buffer that was handed out: reading gives exactly the requested
bytes if and only if what the start and the end add to whole sectors fits into one sector. -/
theorem read_exact_iff_residues (img : Image) (m : Memory) (hready : Ready img m) (s : State Frames)
    (blocks : List Block) (hrun : HeapRun img m s blocks) (disk : ℕ → UInt8) (readBlocks : ReadBlocks Frames)
    (hfills : Fills img hready.room disk readBlocks) (diskSize : ℕ) (hsize : diskSize ≤ 2 ^ 64) (b : Block)
    (hb : b ∈ blocks)
    (offset length : ℕ) (hlength : length ≤ b.2) (hdisk : offset + 512 * 2048 + length < diskSize)
    (hsector : (offset + 512 * 2048) / 512 < 2 ^ 32) (fuel pages : ℕ) (hfuel : pages < fuel)
    (hpages : s.freeList + tempSize length + 32 ≤ s.virtualAllocEnd + 4096 * pages)
    (hleft : 4 * pages ≤ framesLeft img s.mem) :
    Exact img disk readBlocks fuel s offset length b.1 ↔ offset % 512 + length % 512 ≤ 512 := by
  have h := HeapInv.run hready hrun
  have hlo := h.blocks.above b hb
  have hhi := h.blocks.below b hb
  exact read_exact_iff hfills h.heap (by omega) (by omega) (by omega) hsector hfuel hpages hleft

def immediate (disk : ℕ → UInt8) : ReadBlocks α := fun s sector length buffer =>
  (fillBytes s buffer (fun i => disk (512 * sector + i)) length).map fun s => (0, s)

lemma immediate_fills (img : Image) (hr : Room img) (disk : ℕ → UInt8) : Fills img hr disk (immediate disk) := by
  refine ⟨fun s sector count buffer h hlo hhi _ => ?_⟩
  have hsp := h.space
  have hin : ∀ x, heapStart ≤ x → x < s.freeList → Usable Everywhere Everywhere x ∧ Mapped s x := fun x hx hx' =>
    ⟨h.usable (h.inHeap hx (by omega)), h.mapped x hx (by omega)⟩
  have hdest : ∀ x, buffer ≤ x → x < buffer + 512 * count → Usable Everywhere Everywhere x ∧ Mapped s x :=
    fun x hx hx' => hin x (by omega) (by omega)
  obtain ⟨s', hs', hw⟩ := fillBytes_eq (b := fun i => disk (512 * sector + i)) h.tree
    (fun x hx hx' => (hdest x hx hx').1) (fun x hx hx' => (hdest x hx hx').2)
  have hview : ∀ x, heapStart ≤ x → x < s.freeList → view s' x = _ := fun x hx hx' =>
    hw.view x (hin x hx hx').1.outside (hin x hx hx').1.canonical trivial
  refine ⟨s', by rw [immediate, hs', Option.map_some], hw.heap h (Or.inl hhi), hw.same.freeList.ge, ?_, ?_⟩
  · intro i hi
    rw [hview _ (by omega) (by omega), patch_inside hi]
  · intro x hx hx' hout
    rw [hview x hx hx', patch_outside hout]

lemma run_one_block : ∃ s, HeapRun megabyteImage (fun _ => 0) s [(heapStart + 16, 100)] ∧
    s.freeList = heapStart + 116 ∧ s.virtualAllocEnd = heapStart + 4096 := by
  obtain ⟨s₀, hb⟩ := megabyteImage_ready.boot_isSome (by rw [megabyteImage_reserved]; decide)
  have hbooted := megabyteImage_ready.boot_spec (L := Everywhere) (K := Everywhere)
    (fun _ _ => trivial) (fun _ _ => trivial) hb
  have hfit : s₀.freeList + (100 + 32) ≤ s₀.virtualAllocEnd := by
    rw [hbooted.freeList, hbooted.virtualAllocEnd]
    exact Nat.add_le_add_left (by decide) _
  obtain ⟨s, hk, _, hfl, hsame⟩ := hbooted.heap.kalloc_fits 0 (by decide) hfit
  rw [hbooted.freeList] at hk hfl
  refine ⟨s, ⟨s₀, hb, ReflTransGen.single (HeapStep.kalloc (by decide) hk)⟩, hfl, ?_⟩
  exact hsame.virtualAllocEnd.trans hbooted.virtualAllocEnd

lemma one_block_room {s : State Frames} (hfl : s.freeList = heapStart + 116)
    (hend : s.virtualAllocEnd = heapStart + 4096) :
    s.freeList + tempSize 24 + 32 ≤ s.virtualAllocEnd + 4096 * 0 := by
  have hsize : tempSize 24 = 512 := by decide
  rw [hfl, hend, hsize]
  generalize heapStart = e
  omega

theorem read_exact_aligned : ∃ s, HeapRun megabyteImage (fun _ => 0) s [(heapStart + 16, 100)] ∧
    Exact megabyteImage UInt8.ofNat (immediate UInt8.ofNat) 1 s 1024 24 (heapStart + 16) := by
  obtain ⟨s, hrun, hfl, hend⟩ := run_one_block
  refine ⟨s, hrun, ?_⟩
  exact (read_exact_iff_residues _ _ megabyteImage_ready s _ hrun _ _ (immediate_fills _ _ UInt8.ofNat) (2 ^ 40)
    (by decide) (heapStart + 16, 100) List.mem_cons_self 1024 24 (by decide) (by decide) (by decide) 1 0 (by decide)
    (one_block_room hfl hend) (Nat.zero_le _)).mpr (by decide)

/-- Twelve bytes are left in the sector after offset 500, but only one sector is read for 24 bytes. -/
theorem read_not_exact_across_sectors : ∃ s, HeapRun megabyteImage (fun _ => 0) s [(heapStart + 16, 100)] ∧
    ∀ disk, ¬ Exact megabyteImage disk (immediate disk) 1 s 500 24 (heapStart + 16) := by
  obtain ⟨s, hrun, hfl, hend⟩ := run_one_block
  refine ⟨s, hrun, fun disk hexact => ?_⟩
  have h := HeapInv.run megabyteImage_ready hrun
  have hhigh : heapStart + 16 + 24 ≤ s.freeList := by
    rw [hfl]
    generalize heapStart = e
    omega
  have hfit := (read_exact_iff (immediate_fills _ _ disk) h.heap (Nat.le_add_right heapStart 16) hhigh (by decide)
    (by decide) (by decide) (one_block_room hfl hend) (Nat.zero_le _)).mp hexact
  exact absurd hfit (by decide)

end TetraOS.Drivers.BlockRead
