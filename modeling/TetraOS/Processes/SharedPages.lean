import TetraOS.Processes.ProcessImage

/-! Two segments in one page: each of them has its page mapped to a frame of its own, the second after the bytes of
the first have been copied. -/

namespace TetraOS.Processes

open Memory Library.ByteMemory PhysicalAllocator

/-- The file has two loadable segments, in the order of its program headers. They do not overlap, and lie within
one page. -/
structure SharePage (file : ℕ → UInt8) (size : ℕ) (g h : Segment) : Prop where
  elf : LowerElf file size
  both : segments file = [g, h]
  single : g.vaddr % 4096 + g.memsz ≤ 4096 ∧ h.vaddr % 4096 + h.memsz ≤ 4096
  shared : g.page = h.page
  disjoint : ∀ i < g.memsz, ∀ j < h.memsz, g.vaddr + i ≠ h.vaddr + j

def ReadableAt (m : Space) (file : ℕ → UInt8) (g : Segment) : Prop :=
  ∀ j < g.filesz, m (g.vaddr + j) = some (file (g.offset + j))

def BothReadable (img : Image) (fs : FileSystem Frames) (file : ℕ → UInt8) (fuel : ℕ) (scheduler : Scheduler)
    (s : State Frames) : Prop :=
  ∃ scheduler' s', submitNewProcess (kallocFrame (reserved img)) fs fuel scheduler s = some (scheduler', s') ∧
    ∀ g ∈ segments file, ReadableAt (loadByte s') file g

def ZeroBytes (file : ℕ → UInt8) (g : Segment) : Prop := ∀ j < g.filesz, file (g.offset + j) = 0

/-- The segment whose header comes first has only zero bytes in the file, and so has the second if their page is
that of the stack. -/
def LosesZeros (file : ℕ → UInt8) (g h : Segment) : Prop :=
  ZeroBytes file g ∧ (g.page = stackPage / 4096 → ZeroBytes file h)

section Bytes

variable {file : ℕ → UInt8} {size : ℕ} {g h k : Segment} {m m' : Space}

lemma page_of_single (hsingle : g.vaddr % 4096 + g.memsz ≤ 4096) {j : ℕ} (hj : j < g.memsz) :
    (g.vaddr + j) / 4096 = g.page := by
  rw [Segment.page]
  omega

lemma loadable_of_single (hsingle : g.vaddr % 4096 + g.memsz ≤ 4096) (hsz : g.filesz ≤ g.memsz) : g.Loadable m :=
  Segment.loadable_iff.mpr fun _ hj => Or.inl (page_of_single hsingle (hj.trans_le hsz))

lemma readableAt_zero_iff (hm : ∀ j < g.filesz, m (g.vaddr + j) = some 0) : ReadableAt m file g ↔ ZeroBytes file g := by
  refine forall₂_congr fun j hj => ?_
  rw [hm j hj, Option.some_inj, eq_comm]

variable (hx : SharePage file size g h)
include hx

lemma SharePage.filesz : g.filesz ≤ g.memsz ∧ h.filesz ≤ h.memsz :=
  ⟨(hx.elf.each g (by rw [hx.both]; simp)).filesz, (hx.elf.each h (by rw [hx.both]; simp)).filesz⟩

lemma SharePage.loadableAll : LoadableAll file (segments file) m := by
  rw [hx.both]
  exact ⟨loadable_of_single hx.single.1 hx.filesz.1, loadable_of_single hx.single.2 hx.filesz.2, trivial⟩

lemma SharePage.loaded_first {j : ℕ} (hj : j < g.filesz) : loadedAll file (segments file) m (g.vaddr + j) = some 0 := by
  obtain ⟨hg, hh⟩ := hx.filesz
  have hout : g.vaddr + j < h.vaddr ∨ h.vaddr + h.filesz ≤ g.vaddr + j := by
    by_contra hin
    exact hx.disjoint j (by omega) (g.vaddr + j - h.vaddr) (by omega) (by omega)
  rw [hx.both]
  change h.loaded file (g.loaded file m) (g.vaddr + j) = some 0
  rw [Segment.loaded_outside hout, if_pos ((page_of_single hx.single.1 (by omega)).trans hx.shared)]

lemma SharePage.loaded_second {j : ℕ} (hj : j < h.filesz) :
    loadedAll file (segments file) m (h.vaddr + j) = some (file (h.offset + j)) := by
  rw [hx.both]
  exact Segment.loaded_file hj

lemma SharePage.submitted_eq (hk : k ∈ segments file) (hsingle : k.vaddr % 4096 + k.memsz ≤ 4096)
    (hpage : k.page = g.page) {j : ℕ} (hj : j < k.filesz) : submitted file m (k.vaddr + j) =
      if g.page = stackPage / 4096 then some 0 else loadedAll file (segments file) m (k.vaddr + j) := by
  have hsz := (hx.elf.each k hk).filesz
  rw [submitted, Space.mapZero, page_of_single hsingle (by omega), hpage, Space.mapZero,
    if_neg (page_ne_heapPage hk (by omega))]

lemma SharePage.readable_iff (hm : ∀ x < 2 ^ 47, m' x = submitted file m x) :
    (∀ k ∈ segments file, ReadableAt m' file k) ↔ LosesZeros file g h := by
  have hg : g ∈ segments file := by rw [hx.both]; simp
  have hh : h ∈ segments file := by rw [hx.both]; simp
  have hbyte : ∀ k ∈ segments file, k.vaddr % 4096 + k.memsz ≤ 4096 → k.page = g.page → ∀ j < k.filesz,
      m' (k.vaddr + j) = if g.page = stackPage / 4096 then some 0 else
        loadedAll file (segments file) m (k.vaddr + j) := by
    intro k hk hsingle hpage j hj
    have hlow := hx.elf.each k hk
    have hstop := hlow.stop
    have hsz := hlow.filesz
    rw [hm _ (by omega), hx.submitted_eq hk hsingle hpage hj]
  have hfirst : ReadableAt m' file g ↔ ZeroBytes file g := by
    refine readableAt_zero_iff fun j hj => ?_
    rw [hbyte g hg hx.single.1 rfl j hj, hx.loaded_first hj, ite_self]
  have hsecond : ReadableAt m' file h ↔ (g.page = stackPage / 4096 → ZeroBytes file h) := by
    by_cases hstack : g.page = stackPage / 4096
    · rw [imp_iff_right hstack]
      refine readableAt_zero_iff fun j hj => ?_
      rw [hbyte h hh hx.single.2 hx.shared.symm j hj, if_pos hstack]
    · refine iff_of_true (fun j hj => ?_) fun hh => absurd hh hstack
      rw [hbyte h hh hx.single.2 hx.shared.symm j hj, if_neg hstack, hx.loaded_second hj]
  rw [LosesZeros, ← hfirst, ← hsecond, hx.both]
  simp

end Bytes

lemma bothReadable_iff {img : Image} {hr : Room img} {s : State Frames} (hs : Kernel (source img hr) s)
    {fs : FileSystem Frames} {file : ℕ → UInt8} {size cost : ℕ} (hreads : Reads (source img hr) fs file size cost)
    {g h : Segment} (hx : SharePage file size g h) {fuel : ℕ} (hfuel : size / 4096 + 2 < fuel)
    (hl : framesNeeded file size cost ≤ framesLeft img s.mem) (scheduler : Scheduler) :
    BothReadable img fs file fuel scheduler s ↔ LosesZeros file g h := by
  obtain ⟨scheduler', _, _, s', hsubmit, hsub⟩ := (submit_parts hs hreads hx.elf hfuel hl scheduler).1 hx.loadableAll
  rw [← hx.readable_iff hsub.lower]
  constructor
  · rintro ⟨_, s'', hsubmit', hreadable⟩
    obtain ⟨_, rfl⟩ := Prod.mk.inj (Option.some.inj (hsubmit'.symm.trans hsubmit))
    exact hreadable
  · exact fun hreadable => ⟨scheduler', s', hsubmit, hreadable⟩

/-- In every state that the kernel can reach: both segments are readable if and only if the bytes that the second
mapping takes away, and those that the mapping of the stack does, are zeros. -/
theorem bothReadable_iff_losesZeros (img : Image) (m : Memory) (hready : Ready img m) (s : State Frames)
    (blocks : List Block) (hrun : KernelRun img m s blocks) (fs : FileSystem Frames) (file : ℕ → UInt8) (size cost : ℕ)
    (hreads : Reads (source img hready.room) fs file size cost) (g h : Segment) (hx : SharePage file size g h)
    (scheduler : Scheduler) (fuel : ℕ) (hfuel : size / 4096 + 2 < fuel)
    (hframes : framesNeeded file size cost ≤ framesLeft img s.mem) :
    BothReadable img fs file fuel scheduler s ↔ LosesZeros file g h :=
  bothReadable_iff (KernelInv.run hready hrun).kernel hreads hx hfuel hframes scheduler

section Examples

/-- A program with a segment of eight bytes at 0x10000, of which the file has `filesz`, and one at 0x10008. -/
def sharedProgram (filesz : ℕ) : ℕ → UInt8 :=
  let words := [(0, 4, 0x464C457F), (24, 8, 0x10008), (32, 8, 64), (54, 2, 56), (56, 2, 2),
    (64, 4, 1), (72, 8, 176), (80, 8, 0x10000), (96, 8, filesz), (104, 8, 8),
    (120, 4, 1), (128, 8, 184), (136, 8, 0x10008), (152, 8, 8), (160, 8, 8), (176, 8, 0x13), (184, 8, 0x67)]
  words.foldr (fun w m => store m w.2.1 w.1 w.2.2) (fun _ => 0)

lemma sharedProgram_sharePage {filesz : ℕ} (hle : filesz ≤ 8)
    (hsegs : segments (sharedProgram filesz) = [⟨176, 0x10000, filesz, 8⟩, ⟨184, 0x10008, 8, 8⟩])
    (htable : headerOffset (sharedProgram filesz) (phnum (sharedProgram filesz)) ≤ 192) :
    SharePage (sharedProgram filesz) 192 ⟨176, 0x10000, filesz, 8⟩ ⟨184, 0x10008, 8, 8⟩ := by
  have hsingle : 0x10000 % 4096 + 8 ≤ 4096 ∧ 0x10008 % 4096 + 8 ≤ 4096 := by decide
  refine ⟨⟨by decide, htable, fun g hg => ?_, ?_⟩, hsegs, hsingle,
    show 0x10000 / 4096 = 0x10008 / 4096 by decide, fun i hi j hj => ?_⟩
  · rw [hsegs, List.mem_cons, List.mem_singleton] at hg
    rcases hg with rfl | rfl
    · exact ⟨by dsimp only; omega, show 0x10000 < 2 ^ 47 by decide,
        show 0x10008 ≤ 2 ^ 47 by decide, hle⟩
    · exact ⟨by decide, by decide, by decide, by decide⟩
  · rw [hsegs, heapPage, dataEnd, List.foldl_cons, List.foldl_cons, List.foldl_nil]
    dsimp only
    omega
  · dsimp only at hi hj ⊢
    omega

lemma sharedProgram_frames {filesz : ℕ}
    (hsegs : segments (sharedProgram filesz) = [⟨176, 0x10000, filesz, 8⟩, ⟨184, 0x10008, 8, 8⟩]) :
    framesNeeded (sharedProgram filesz) 192 0 ≤ 32763 := by
  rw [framesNeeded, hsegs, segmentsFrames]
  simp only [List.map_cons, List.map_nil, List.sum_cons, List.sum_nil, segmentFrames]
  omega

theorem bothReadable_zero_segment : ∃ s, KernelRun megabyteImage (fun _ => 0) s [] ∧
    BothReadable megabyteImage (oneFile (sharedProgram 0) 192) (sharedProgram 0) 3 ⟨0, []⟩ s := by
  obtain ⟨s, hrun, hleft, _⟩ := boot_kernel
  have hsegs : segments (sharedProgram 0) = [⟨176, 0x10000, 0, 8⟩, ⟨184, 0x10008, 8, 8⟩] := by rfl
  refine ⟨s, hrun, (bothReadable_iff_losesZeros _ _ megabyteImage_ready s [] hrun _ _ 192 0
    (oneFile_reads _ _ (by decide)) _ _ (sharedProgram_sharePage (by decide) hsegs (by decide)) ⟨0, []⟩ 3 (by decide)
    (by rw [hleft]; exact sharedProgram_frames hsegs)).mpr ⟨?_, ?_⟩⟩
  · exact fun j hj => absurd hj (Nat.not_lt_zero j)
  · exact fun hpage => absurd hpage (by decide)

theorem not_bothReadable_shared_page : ∃ s, KernelRun megabyteImage (fun _ => 0) s [] ∧
    SharePage (sharedProgram 8) 192 ⟨176, 0x10000, 8, 8⟩ ⟨184, 0x10008, 8, 8⟩ ∧
    ¬ BothReadable megabyteImage (oneFile (sharedProgram 8) 192) (sharedProgram 8) 3 ⟨0, []⟩ s := by
  obtain ⟨s, hrun, hleft, hbooted⟩ := boot_kernel
  have hsegs : segments (sharedProgram 8) = [⟨176, 0x10000, 8, 8⟩, ⟨184, 0x10008, 8, 8⟩] := by rfl
  have hx := sharedProgram_sharePage (by decide) hsegs (by decide)
  refine ⟨s, hrun, hx, fun hreadable => ?_⟩
  rw [bothReadable_iff hbooted.heap (oneFile_reads _ _ (by decide)) hx (by decide)
    (by rw [hleft]; exact sharedProgram_frames hsegs)] at hreadable
  exact absurd (hreadable.1 0 (by decide)) (by decide)

end Examples

end TetraOS.Processes
