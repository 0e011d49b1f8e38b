import TetraOS.Library.BumpBlocks
import TetraOS.Processes.ProcessImage

/-! Where the blocks of the kernel heap lie over a run: one behind the other, each behind its header, and nothing
rounds their addresses. -/

namespace TetraOS.Processes

open Memory Library.ByteMemory Library.BumpBlocks PhysicalAllocator Relation

structure Layout (s : State Frames) (blocks : List Block) : Prop where
  freeList : s.freeList = heapStart + taken 16 blocks
  consecutive : Consecutive heapStart 16 blocks

section Layout

variable {img : Image} {s s' : State Frames} {blocks blocks' : List Block}

lemma KernelStep.freeList {hr : Room img} (h : KernelInv img hr s blocks)
    (hstep : KernelStep img (s, blocks) (s', blocks')) :
    (∃ size < 2 ^ 62, blocks' = (s.freeList + 16, size) :: blocks ∧ s'.freeList = s.freeList + 16 + size) ∨
      (blocks' = blocks ∧ s'.freeList = s.freeList) := by
  cases hstep with
  | @kalloc _ _ _ _ size _ hsize hk =>
    obtain ⟨_, rfl, hfl, _⟩ := h.kernel.kalloc (by omega) hk
    exact Or.inl ⟨size, hsize, rfl, hfl⟩
  | kallocFrame hk =>
    obtain ⟨_, _, hfl, _⟩ := h.kernel.kallocFrame hk
    exact Or.inr ⟨rfl, hfl⟩
  | mapFrame hv hm =>
    obtain ⟨_, _, hnew⟩ := mapFrame_mapsNew h.kernel (outside_of_lower hv) (not_heapPath_of_lower hv) hm
    exact Or.inr ⟨rfl, hnew.freeList⟩
  | write _ hw =>
    obtain ⟨p, _, rfl⟩ := Option.map_eq_some_iff.mp hw
    exact Or.inr ⟨rfl, rfl⟩

lemma Layout.step {hr : Room img} (h : KernelInv img hr s blocks) (hl : Layout s blocks)
    (hstep : KernelStep img (s, blocks) (s', blocks')) : Layout s' blocks' := by
  rcases hstep.freeList h with ⟨size, _, rfl, hfl⟩ | ⟨rfl, hfl⟩
  · refine ⟨?_, ?_, hl.consecutive⟩
    · rw [hfl, hl.freeList, taken_cons]
      omega
    · dsimp only
      rw [hl.freeList]
      omega
  · exact ⟨hfl.trans hl.freeList, hl.consecutive⟩

lemma Layout.run {m : Memory} (hready : Ready img m) (hrun : KernelRun img m s blocks) : Layout s blocks := by
  obtain ⟨s₀, hb, hrun⟩ := hrun
  have hbooted := hready.boot_spec (L := Everywhere) (K := Everywhere) (fun _ _ => trivial) (fun _ _ => trivial) hb
  suffices hh : ∀ c, ReflTransGen (KernelStep img) (s₀, []) c → Layout c.1 c.2 from hh _ hrun
  intro c hc
  induction hc with
  | refl => exact ⟨by rw [hbooted.freeList, taken_nil, Nat.add_zero], trivial⟩
  | tail hbefore hstep ih => exact ih.step (KernelInv.run hready ⟨s₀, hb, hbefore⟩) hstep

lemma KernelRun.heapInv {m : Memory} (hready : Ready img m) (hrun : KernelRun img m s blocks) :
    HeapInv img hready.room s blocks := by
  have hl := Layout.run hready hrun
  obtain ⟨hblocks, hordered⟩ := hl.consecutive.apart
  refine ⟨(KernelInv.run hready hrun).kernel, fun b hb => (hblocks b hb).1, fun b hb => ?_, hordered⟩
  rw [hl.freeList]
  exact (hblocks b hb).2

lemma KernelRun.kalloc {m : Memory} (hready : Ready img m) (hrun : KernelRun img m s blocks) {fuel size p : ℕ}
    (hsize : size + 32 < 2 ^ 64) (hk : kalloc (kallocFrame (reserved img)) fuel s size = some (p, s')) :
    KernelRun img m s' ((p, size) :: blocks) := by
  have h := (KernelInv.run hready hrun).kernel
  obtain ⟨h', rfl, hfl, _⟩ := h.kalloc hsize hk
  have hsp := h'.space
  have hend := h'.end_le
  have hst := h.start
  rw [heapLimit_eq] at hend
  rw [heapStart_eq] at hst
  obtain ⟨s₀, hb, hrun⟩ := hrun
  exact ⟨s₀, hb, hrun.tail (.kalloc (by omega) hk)⟩

end Layout

/-- An address for eight bytes: a multiple of eight, so that the bytes are in one page. -/
structure Natural (a : ℕ) : Prop where
  multiple : a % 8 = 0
  page : (a + 7) / 4096 = a / 4096

structure Aligned (s : State Frames) (blocks : List Block) : Prop where
  fields : ∀ b ∈ blocks, ∀ i, Natural (b.1 + 8 * i)
  headers : ∀ b ∈ blocks, Natural (b.1 - 16) ∧ Natural (b.1 - 8)
  node : Natural s.freeList ∧ Natural (s.freeList + 8)

section Alignment

variable {s : State Frames} {blocks : List Block}

lemma natural_iff {a : ℕ} : Natural a ↔ a % 8 = 0 :=
  ⟨Natural.multiple, fun h => ⟨h, by omega⟩⟩

lemma heapStart_mod_eight : heapStart % 8 = 0 := by rw [heapStart_eq]

lemma blocks_mod_eight (h : Consecutive heapStart 16 blocks) (hsizes : ∀ b ∈ blocks, b.2 % 8 = 0) :
    ∀ b ∈ blocks, b.1 % 8 = 0 := by
  have hstart := heapStart_mod_eight
  induction blocks with
  | nil => exact fun _ hb => absurd hb List.not_mem_nil
  | cons b blocks ih =>
    have hrest : ∀ c ∈ blocks, c.2 % 8 = 0 := fun c hc => hsizes c (List.mem_cons_of_mem b hc)
    have htaken : taken 16 blocks % 8 = 0 := taken_mod rfl hrest
    intro c hc
    rcases List.mem_cons.mp hc with rfl | hc
    · have := h.1
      omega
    · exact ih h.2 hrest c hc

lemma sizes_mod_eight (h : Consecutive heapStart 16 blocks) (hblocks : ∀ b ∈ blocks, b.1 % 8 = 0)
    (hend : taken 16 blocks % 8 = 0) : ∀ b ∈ blocks, b.2 % 8 = 0 := by
  have hstart := heapStart_mod_eight
  induction blocks with
  | nil => exact fun _ hb => absurd hb List.not_mem_nil
  | cons b blocks ih =>
    have hb := hblocks b List.mem_cons_self
    have hb' := h.1
    rw [taken_cons] at hend
    have hrest := ih h.2 (fun c hc => hblocks c (List.mem_cons_of_mem b hc)) (by omega)
    intro c hc
    rcases List.mem_cons.mp hc with rfl | hc
    · omega
    · exact hrest c hc

lemma Layout.aligned_iff (h : Layout s blocks) : Aligned s blocks ↔ ∀ b ∈ blocks, b.2 % 8 = 0 := by
  have hstart := heapStart_mod_eight
  have hfl := h.freeList
  constructor
  · intro ha
    have hend := ha.node.1.multiple
    exact sizes_mod_eight h.consecutive (fun b hb => (ha.fields b hb 0).multiple) (by omega)
  · intro hsizes
    have htaken : taken 16 blocks % 8 = 0 := taken_mod rfl hsizes
    have hblocks := blocks_mod_eight h.consecutive hsizes
    have habove := h.consecutive.apart.1
    refine ⟨fun b hb i => ?_, fun b hb => ?_, ?_⟩
    · have := hblocks b hb
      exact natural_iff.mpr (by omega)
    · have := hblocks b hb
      have := (habove b hb).1
      exact ⟨natural_iff.mpr (by omega), natural_iff.mpr (by omega)⟩
    · exact ⟨natural_iff.mpr (by omega), natural_iff.mpr (by omega)⟩

end Alignment

/-- In every state that the kernel can reach: everything on the heap is aligned exactly if all sizes so far are
multiples of eight. Every call that is served, and whose size does not wrap, leads to such a state. -/
theorem kernelRun_aligned_iff (img : Image) (m : Memory) (hready : Ready img m) (s : State Frames)
    (blocks : List Block) (hrun : KernelRun img m s blocks) :
    (Aligned s blocks ↔ ∀ b ∈ blocks, b.2 % 8 = 0) ∧
    ∀ fuel size p s', size + 32 < 2 ^ 64 → kalloc (kallocFrame (reserved img)) fuel s size = some (p, s') →
      KernelRun img m s' ((p, size) :: blocks) :=
  ⟨(Layout.run hready hrun).aligned_iff, fun _ _ _ _ hsize hk => hrun.kalloc hready hsize hk⟩

section Examples

lemma boot_kalloc (size : ℕ) (hsize : size ≤ 4000) : ∃ s, KernelRun megabyteImage (fun _ => 0) s
    [(heapStart + 16, size)] ∧ 32000 ≤ framesLeft megabyteImage s.mem := by
  obtain ⟨s, hrun, hleft, hbooted⟩ := boot_kernel
  have hl : (source megabyteImage megabyteImage_ready.room).left s.mem s.frames = 32763 := by rw [source_left, hleft]
  obtain ⟨s', hk, _, he⟩ := kalloc_effect hbooted.heap (by omega : size < 2 ^ 62) (by omega : size / 4096 + 2 < 3)
    (by omega)
  have hleft' := he.left
  rw [source_left, source_left, hleft] at hleft'
  rw [hbooted.freeList] at hk
  exact ⟨s', hrun.kalloc megabyteImage_ready (by omega) hk, by omega⟩

theorem kernelRun_aligned_objects : ∃ s p q r, KernelRun megabyteImage (fun _ => 0) s [(r, 4096), (q, 48), (p, 24)] ∧
    Aligned s [(r, 4096), (q, 48), (p, 24)] := by
  obtain ⟨s₁, hrun₁, hleft⟩ := boot_kalloc 24 (by decide)
  have h₁ := (KernelInv.run megabyteImage_ready hrun₁).kernel
  obtain ⟨s₂, hk₂, _, he₂⟩ := kalloc_effect h₁ (by decide : 48 < 2 ^ 62) (by decide : 48 / 4096 + 2 < 3)
    (by rw [source_left]; omega)
  have hleft₂ := he₂.left
  rw [source_left, source_left] at hleft₂
  have hrun₂ := (kernelRun_aligned_iff _ _ megabyteImage_ready s₁ _ hrun₁).2 3 48 _ s₂ (by decide) hk₂
  have h₂ := (KernelInv.run megabyteImage_ready hrun₂).kernel
  obtain ⟨s₃, hk₃, _⟩ := kalloc_effect h₂ (by decide : 4096 < 2 ^ 62) (by decide : 4096 / 4096 + 2 < 4)
    (by rw [source_left]; omega)
  have hrun₃ := (kernelRun_aligned_iff _ _ megabyteImage_ready s₂ _ hrun₂).2 4 4096 _ s₃ (by decide) hk₃
  exact ⟨s₃, _, _, _, hrun₃, (kernelRun_aligned_iff _ _ megabyteImage_ready s₃ _ hrun₃).1.mpr (by simp)⟩

/-- Behind the eleven bytes of a path name, the next object is at an odd address. -/
theorem kernelRun_not_aligned_path : ∃ s p q, KernelRun megabyteImage (fun _ => 0) s [(q, 24), (p, 11)] ∧
    q % 8 = 3 ∧ ¬ Aligned s [(q, 24), (p, 11)] := by
  obtain ⟨s, hrun, hleft⟩ := boot_kalloc 11 (by decide)
  have h := (KernelInv.run megabyteImage_ready hrun).kernel
  have hstart := heapStart_mod_eight
  obtain ⟨s', hk, _, _⟩ := kalloc_effect h (by decide : 24 < 2 ^ 62) (by decide : 24 / 4096 + 2 < 3)
    (by rw [source_left]; omega)
  have hrun' := hrun.kalloc megabyteImage_ready (by decide) hk
  have hodd : (s.freeList + 16) % 8 = 3 := by
    rw [(Layout.run megabyteImage_ready hrun).freeList, taken_cons, taken_nil]
    omega
  refine ⟨s', _, _, hrun', hodd, fun ha => ?_⟩
  have hmultiple := (ha.fields _ List.mem_cons_self 0).multiple
  dsimp only at hmultiple
  omega

end Examples

end TetraOS.Processes
