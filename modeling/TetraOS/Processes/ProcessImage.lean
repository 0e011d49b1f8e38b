import TetraOS.Processes.Loading

/-! Whether a process finds its segments in memory as the program headers say. -/

namespace TetraOS.Processes

open Memory Library.ByteMemory Library.TableTree VirtualPage PhysicalAllocator Relation

/-- What the kernel and its processes do between the calls of `submit_new_process`. -/
inductive KernelStep (img : Image) : State Frames × List Block → State Frames × List Block → Prop
  | kalloc {s s' blocks fuel size p} : size < 2 ^ 62 →
      kalloc (kallocFrame (reserved img)) fuel s size = some (p, s') →
      KernelStep img (s, blocks) (s', (p, size) :: blocks)
  | kallocFrame {s s' blocks f} : s.kallocFrame (kallocFrame (reserved img)) = some (f, s') →
      KernelStep img (s, blocks) (s', blocks)
  | mapFrame {s s' blocks v} : v < 2 ^ 47 → mapFrame (kallocFrame (reserved img)) v s = some s' →
      KernelStep img (s, blocks) (s', blocks)
  | write {s s' blocks va x} : (∃ b ∈ blocks, va ∈ Block.range b) ∨ va < 2 ^ 47 → storeByte s va x = some s' →
      KernelStep img (s, blocks) (s', blocks)

def KernelRun (img : Image) (m : Memory) (s : State Frames) (blocks : List Block) : Prop :=
  ∃ s₀, boot img m = some s₀ ∧ ReflTransGen (KernelStep img) (s₀, []) (s, blocks)

lemma HeapStep.kernelStep {img : Image} {c d : State Frames × List Block} (h : HeapStep img c d) :
    KernelStep img c d := by
  cases h with
  | kalloc hsize hk => exact .kalloc hsize hk
  | write hb hva hs => exact .write (Or.inl ⟨_, hb, hva⟩) hs

lemma KernelRun.heapSteps {img : Image} {m : Memory} {s t : State Frames} {blocks bs : List Block}
    (h : KernelRun img m s blocks) (hsteps : ReflTransGen (HeapStep img) (s, blocks) (t, bs)) :
    KernelRun img m t bs := by
  obtain ⟨s₀, hb, hrun⟩ := h
  exact ⟨s₀, hb, hrun.trans (ReflTransGen.mono (fun _ _ => HeapStep.kernelStep) _ _ hsteps)⟩

structure KernelInv (img : Image) (hr : Room img) (s : State Frames) (blocks : List Block) : Prop where
  kernel : Kernel (source img hr) s
  below : ∀ b ∈ blocks, heapStart ≤ b.1 ∧ b.1 + b.2 ≤ s.freeList

section Runs

variable {img : Image} {hr : Room img} {s s' : State Frames} {blocks : List Block}

lemma KernelInv.kalloc (h : KernelInv img hr s blocks) {fuel size p : ℕ} (hsize : size < 2 ^ 62)
    (hk : Memory.kalloc (kallocFrame (reserved img)) fuel s size = some (p, s')) :
    KernelInv img hr s' ((p, size) :: blocks) := by
  obtain ⟨h', rfl, hfl, _⟩ := h.kernel.kalloc (by omega) hk
  exact ⟨h', below_cons h.kernel.start h.below hfl⟩

lemma KernelInv.mapFrame (h : KernelInv img hr s blocks) {v : ℕ} (hv : v < 2 ^ 47)
    (hm : Processes.mapFrame (kallocFrame (reserved img)) v s = some s') : KernelInv img hr s' blocks := by
  obtain ⟨h', n, hnew⟩ := mapFrame_mapsNew h.kernel (outside_of_lower hv) (not_heapPath_of_lower hv) hm
  exact ⟨h', by rw [hnew.freeList]; exact h.below⟩

lemma KernelInv.write (h : KernelInv img hr s blocks) {va : ℕ} {x : UInt8}
    (hva : (∃ b ∈ blocks, va ∈ Block.range b) ∨ va < 2 ^ 47) (hw : storeByte s va x = some s') :
    KernelInv img hr s' blocks := by
  have hwhere := h.kernel.before_freeList h.below hva
  obtain ⟨h', hsame, _⟩ := h.kernel.storeByte hwhere.1 trivial (Or.inl hwhere.2) hw
  exact ⟨h', by rw [hsame.freeList]; exact h.below⟩

lemma KernelInv.run {m : Memory} (hready : Ready img m) (hrun : KernelRun img m s blocks) :
    KernelInv img hready.room s blocks := by
  obtain ⟨s₀, hb, hrun⟩ := hrun
  have hinit : KernelInv img hready.room s₀ [] :=
    ⟨(hready.boot_spec (L := Everywhere) (K := Everywhere) (fun _ _ => trivial) (fun _ _ => trivial) hb).heap,
      fun _ hb => absurd hb List.not_mem_nil⟩
  suffices hh : ∀ c, ReflTransGen (KernelStep img) (s₀, []) c → KernelInv img hready.room c.1 c.2 from hh _ hrun
  intro c hc
  induction hc with
  | refl => exact hinit
  | tail _ hs ih =>
    cases hs with
    | kalloc hsize hk => exact ih.kalloc hsize hk
    | kallocFrame hk =>
      obtain ⟨h', _, hfl, _⟩ := ih.kernel.kallocFrame hk
      exact ⟨h', by rw [hfl]; exact ih.below⟩
    | mapFrame hv hm => exact ih.mapFrame hv hm
    | write hva hw => exact ih.write hva hw

lemma KernelRun.write_lower {m : Memory} (hready : Ready img m) (hrun : KernelRun img m s blocks) {x : ℕ}
    (hx : x < 2 ^ 47) (hload : (loadByte s x).isSome) (b : UInt8) :
    ∃ s', storeByte s x b = some s' ∧ KernelRun img m s' blocks ∧ framesLeft img s'.mem = framesLeft img s.mem ∧
      ∀ y < 2 ^ 47, loadByte s' y = (loadByte s y).map fun c => if y = x then b else c := by
  obtain ⟨s', hs', _, hleft, hloads⟩ := Kernel.write_lower (KernelInv.run hready hrun).kernel hx hload b
  rw [source_left, source_left] at hleft
  obtain ⟨s₀, hboot, hsteps⟩ := hrun
  exact ⟨s', hs', ⟨s₀, hboot, hsteps.tail (.write (Or.inr hx) hs')⟩, hleft, hloads⟩

end Runs

def Faithful (img : Image) (fs : FileSystem Frames) (file : ℕ → UInt8) (fuel : ℕ) (scheduler : Scheduler)
    (s : State Frames) : Prop :=
  ∃ scheduler' s', submitNewProcess (kallocFrame (reserved img)) fs fuel scheduler s = some (scheduler', s') ∧
    Shows file (segments file) (loadByte s')

section Faithful

variable {file : ℕ → UInt8} {size : ℕ}

lemma Executable.shows_iff (hx : Executable file size) {m m' : Space}
    (hm : ∀ x < 2 ^ 47, m' x = submitted file m x) :
    Shows file (segments file) m' ↔ Shows file (segments file) (loadedAll file (segments file) m) := by
  refine forall₂_congr fun g hg => forall₂_congr fun j hj => ?_
  have hlow := (hx.lower g hg).2
  rw [hm _ (by omega), submitted, Space.mapZero, if_neg (hx.stack g hg j hj), Space.mapZero,
    if_neg (page_ne_heapPage hg hj)]

lemma faithful_iff {img : Image} {hr : Room img} {s : State Frames} (hs : Kernel (source img hr) s)
    {fs : FileSystem Frames} {cost : ℕ} (hreads : Reads (source img hr) fs file size cost) (hx : Executable file size)
    {fuel : ℕ} (hfuel : size / 4096 + 2 < fuel) (hl : framesNeeded file size cost ≤ framesLeft img s.mem)
    (scheduler : Scheduler) :
    Faithful img fs file fuel scheduler s ↔ FitsAll file (segments file) (loadByte s) := by
  obtain ⟨hreturn, hfault⟩ := submit_parts hs hreads hx.lowerElf hfuel hl scheduler
  rw [← loaded_iff_fits hx.wellFormed]
  constructor
  · rintro ⟨scheduler', s', hsubmit, hshows⟩
    by_cases hall : LoadableAll file (segments file) (loadByte s)
    · obtain ⟨_, _, _, s'', hsubmit', hsub⟩ := hreturn hall
      obtain ⟨_, rfl⟩ := Prod.mk.inj (Option.some.inj (hsubmit.symm.trans hsubmit'))
      exact ⟨hall, (hx.shows_iff hsub.lower).mp hshows⟩
    · cases hsubmit.symm.trans (hfault hall)
  · rintro ⟨hall, hshows⟩
    obtain ⟨scheduler', _, _, s', hsubmit, hsub⟩ := hreturn hall
    exact ⟨scheduler', s', hsubmit, (hx.shows_iff hsub.lower).mpr hshows⟩

end Faithful

/-- In every state that the kernel can reach, and for every program of the lower half: the segments are in memory
as the headers say if and only if each of their bytes finds its page. -/
theorem submit_faithful_iff_fits (img : Image) (m : Memory) (hready : Ready img m) (s : State Frames)
    (blocks : List Block) (hrun : KernelRun img m s blocks) (fs : FileSystem Frames) (file : ℕ → UInt8) (size cost : ℕ)
    (hreads : Reads (source img hready.room) fs file size cost) (hx : Executable file size) (scheduler : Scheduler)
    (fuel : ℕ) (hfuel : size / 4096 + 2 < fuel) (hframes : framesNeeded file size cost ≤ framesLeft img s.mem) :
    Faithful img fs file fuel scheduler s ↔ FitsAll file (segments file) (loadByte s) :=
  faithful_iff (KernelInv.run hready hrun).kernel hreads hx hfuel hframes scheduler

lemma fitsAll_of_one_page {file : ℕ → UInt8} {segs : List Segment}
    (h : ∀ g ∈ segs, 0 < g.memsz ∧ g.vaddr % 4096 + g.memsz ≤ 4096) (m : Space) : FitsAll file segs m := by
  rintro before g after rfl j hj
  have hg := h g (List.mem_append_right _ List.mem_cons_self)
  refine ⟨?_, Or.inl ?_⟩
  · rintro ⟨k, hk, hzero, _⟩
    have := (h k (List.mem_append_right _ (List.mem_cons_of_mem _ hk))).1
    omega
  · rw [Segment.page]
    omega

section Examples

def oneFile {α : Type} (file : ℕ → UInt8) (size : ℕ) : FileSystem α where
  getFileSize := fun s => some (size, s)
  readFile := fun s size data => (fillBytes s data file size).map fun s => (0, s)

lemma oneFile_reads {α : Type} (S : FrameSource α) (file : ℕ → UInt8) {size : ℕ} (hsize : size < 2 ^ 32) :
    Reads S (oneFile file size) file size 0 := by
  refine ⟨hsize, fun s hs _ => ⟨s, rfl, Effect.refl hs⟩, fun s data hs _ hlo hhi => ?_⟩
  have hin : ∀ x, data ≤ x → x < data + size → InHeap x ∧ Mapped s x := fun x hx hx' =>
    inHeap_of_freeList hs (by omega) (by omega)
  obtain ⟨s', hs', hw⟩ := fillBytes_eq (b := file) hs.tree (fun x hx hx' => hs.usable (hin x hx hx').1)
    (fun x hx hx' => (hin x hx hx').2)
  have h' := hw.heap hs (Or.inl hhi)
  have hleft := hw.same.left hs.tree.good
  have hlow := lower_le_heapStart
  refine ⟨0, s', congrArg (Option.map fun s => (0, s)) hs', h', ?_, hw.same.freeList.ge, hleft.ge, ?_⟩
  · intro x hx
    have hu := usable_of_lower hx
    have hv := hw.view x hu.outside hu.canonical trivial
    rw [patch_outside (by omega)] at hv
    exact loadByte_congr hs h' hx hw.same.satp (hw.same.walk _ (inside_path hu.outside)) hv
  · intro i hi
    have hu := hs.usable (hin (data + i) (by omega) (by omega)).1
    rw [hw.view _ hu.outside hu.canonical trivial, patch_inside hi]

/-- A program of 128 bytes with one segment at 0x10000, of eight bytes in the file. -/
def program (memsz : ℕ) : ℕ → UInt8 :=
  let words := [(0, 4, 0x464C457F), (24, 8, 0x10000), (32, 8, 64), (54, 2, 56), (56, 2, 1), (64, 4, 1), (72, 8, 120),
    (80, 8, 0x10000), (96, 8, 8), (104, 8, memsz), (120, 8, 0x13)]
  words.foldr (fun w m => store m w.2.1 w.1 w.2.2) (fun _ => 0)

def programSegment (memsz : ℕ) : Segment := ⟨120, 0x10000, 8, memsz⟩

lemma program_executable {memsz : ℕ} (hsegs : segments (program memsz) = [programSegment memsz])
    (htable : headerOffset (program memsz) (phnum (program memsz)) ≤ 128) (hpos : 8 ≤ memsz) (hle : memsz ≤ 8192) :
    Executable (program memsz) 128 := by
  have hmem : ∀ g ∈ segments (program memsz), g = programSegment memsz := by
    intro g hg
    rw [hsegs] at hg
    exact List.mem_singleton.mp hg
  refine ⟨by decide, htable, ?_, ?_, ⟨?_, ?_⟩, ?_, ?_⟩
  · rintro g hg
    rw [hmem g hg]
    exact le_refl 128
  · rintro g hg
    rw [hmem g hg, programSegment]
    dsimp only
    omega
  · rintro g hg
    rw [hmem g hg]
    exact hpos
  · rw [hsegs]
    exact List.pairwise_singleton _ _
  · rintro g hg j hj
    rw [hmem g hg, programSegment, stackPage] at *
    dsimp only at *
    omega
  · rw [hsegs, heapPage, dataEnd, programSegment, List.foldl_cons, List.foldl_nil]
    dsimp only
    omega

lemma boot_kernel : ∃ s, KernelRun megabyteImage (fun _ => 0) s [] ∧ framesLeft megabyteImage s.mem = 32763 ∧
    Booted megabyteImage megabyteImage_ready.room Everywhere Everywhere s := by
  obtain ⟨s, hb⟩ := megabyteImage_ready.boot_isSome (by rw [megabyteImage_reserved]; decide)
  have hbooted := megabyteImage_ready.boot_spec (L := Everywhere) (K := Everywhere) (fun _ _ => trivial)
    (fun _ _ => trivial) hb
  refine ⟨s, ⟨s, hb, ReflTransGen.refl⟩, ?_, hbooted⟩
  rw [hbooted.used.framesLeft_eq, megabyteImage_reserved]

lemma loadByte_booted {img : Image} {hr : Room img} {s : State Frames} (h : Booted img hr Everywhere Everywhere s)
    {x : ℕ} (hx : x < 2 ^ 47) : loadByte s x = none := by
  have hu := usable_of_lower hx
  have hne : path x ≠ path heapStart := fun hp =>
    not_heapPath_of_lower hx ⟨heapStart, ⟨le_rfl, by rw [heapStart_eq, heapLimit_eq]; norm_num⟩, hp⟩
  apply loadByte_eq_none h.heap.tree hu
  rw [Mapped, h.empty (path x) (inside_path hu.outside) (not_prefix_path hne) hu.outside]
  exact Bool.false_ne_true

lemma text_page (text : List UInt8) (hlen : text.length < 4096) : ∃ s, KernelRun megabyteImage (fun _ => 0) s [] ∧
    (∀ i (hi : i < text.length), loadByte s (0x10000 + i) = some text[i]) ∧
    loadByte s (0x10000 + text.length) = some 0 ∧ 32000 ≤ framesLeft megabyteImage s.mem := by
  obtain ⟨s₀, ⟨s, hboot, hrun⟩, hleft, hbooted⟩ := boot_kernel
  have hframes : (source megabyteImage megabyteImage_ready.room).left s₀.mem s₀.frames = 32763 := by
    rw [source_left, hleft]
  obtain ⟨s₁, hs₁, he⟩ := mapFrame_effect hbooted.heap (by decide : 0x10000 < 2 ^ 47) (by omega)
  have hused := he.left
  rw [source_left, source_left, hleft] at hused
  have hrun₁ : KernelRun megabyteImage (fun _ => 0) s₁ [] := ⟨s, hboot, hrun.tail (.mapFrame (by decide) hs₁)⟩
  have hwrite : ∀ n ≤ text.length, ∃ t, KernelRun megabyteImage (fun _ => 0) t [] ∧
      framesLeft megabyteImage t.mem = framesLeft megabyteImage s₁.mem ∧
      ∀ i < 4096, loadByte t (0x10000 + i) = some (if i < n then text.getD i 0 else 0) := by
    intro n hn
    induction n with
    | zero =>
      refine ⟨s₁, hrun₁, rfl, fun i hi => ?_⟩
      rw [he.lower _ (by omega), Space.mapZero, if_pos (by omega), if_neg (Nat.not_lt_zero i)]
    | succ n ih =>
      obtain ⟨t, hrunt, hleftt, hloads⟩ := ih (by omega)
      obtain ⟨t', _, hrunt', hleft', hloads'⟩ := hrunt.write_lower megabyteImage_ready
        (by omega : 0x10000 + n < 2 ^ 47) (by rw [hloads n (by omega)]; rfl) (text.getD n 0)
      refine ⟨t', hrunt', hleft'.trans hleftt, fun i hi => ?_⟩
      rw [hloads' _ (by omega), hloads i hi, Option.map_some]
      by_cases hin : i = n
      · rw [if_pos (by omega), if_pos (by omega), hin]
      · rw [if_neg (by omega)]
        by_cases hlt : i < n
        · rw [if_pos hlt, if_pos (by omega)]
        · rw [if_neg hlt, if_neg (by omega)]
  obtain ⟨t, hrunt, hleftt, hloads⟩ := hwrite text.length le_rfl
  refine ⟨t, hrunt, fun i hi => ?_, ?_, by omega⟩
  · rw [hloads i (by omega), if_pos hi, ← List.getElem_eq_getD]
  · rw [hloads _ hlen, if_neg (lt_irrefl _)]

lemma letter_page : ∃ s, KernelRun megabyteImage (fun _ => 0) s [] ∧ loadByte s 0x10000 = some 0x41 ∧
    loadByte s 0x10001 = some 0 ∧ 32000 ≤ framesLeft megabyteImage s.mem := by
  obtain ⟨s, hrun, hletter, hzero, hleft⟩ := text_page [0x41] (by decide)
  exact ⟨s, hrun, hletter 0 (by decide), hzero, hleft⟩

lemma program_frames {memsz : ℕ} (hsegs : segments (program memsz) = [programSegment memsz]) (hle : memsz ≤ 8192) :
    framesNeeded (program memsz) 128 0 ≤ 32763 := by
  rw [framesNeeded, hsegs, segmentsFrames, List.map_singleton, List.sum_singleton, segmentFrames, programSegment]
  dsimp only
  omega

theorem submit_faithful_one_page : ∃ s, KernelRun megabyteImage (fun _ => 0) s [] ∧
    Faithful megabyteImage (oneFile (program 4096) 128) (program 4096) 3 ⟨0, []⟩ s := by
  obtain ⟨s, hrun, hleft, hbooted⟩ := boot_kernel
  have hsegs : segments (program 4096) = [programSegment 4096] := by rfl
  have hx : Executable (program 4096) 128 := program_executable hsegs (by decide) (by decide) (by decide)
  have hframes : framesNeeded (program 4096) 128 0 ≤ framesLeft megabyteImage s.mem := by
    rw [hleft]
    exact program_frames hsegs (by decide)
  refine ⟨s, hrun, (submit_faithful_iff_fits _ _ megabyteImage_ready s [] hrun _ _ 128 0
    (oneFile_reads _ _ (by decide)) hx ⟨0, []⟩ 3 (by decide) hframes).mpr (fitsAll_of_one_page ?_ _)⟩
  rw [hsegs]
  intro g hg
  rw [List.mem_singleton.mp hg]
  decide

/-- Of a segment of two pages, the second is not mapped. -/
theorem submit_not_faithful_two_pages : ∃ s, KernelRun megabyteImage (fun _ => 0) s [] ∧
    Executable (program 8192) 128 ∧
    ¬ Faithful megabyteImage (oneFile (program 8192) 128) (program 8192) 3 ⟨0, []⟩ s := by
  obtain ⟨s, hrun, hleft, hbooted⟩ := boot_kernel
  have hsegs : segments (program 8192) = [programSegment 8192] := by rfl
  have hx : Executable (program 8192) 128 := program_executable hsegs (by decide) (by decide) (by decide)
  refine ⟨s, hrun, hx, fun hfaithful => ?_⟩
  rw [faithful_iff hbooted.heap (oneFile_reads _ _ (by decide)) hx (by decide)
    (by rw [hleft]; exact program_frames hsegs (by decide)), hsegs] at hfaithful
  have hfits := (hfaithful [] (programSegment 8192) [] rfl 4096 (by decide)).there
  rw [loadByte_booted hbooted (by decide)] at hfits
  rcases hfits with hp | ⟨g, hg, _⟩ | ⟨hlt, _⟩ | ⟨_, hzero | ⟨g, hg, _⟩⟩
  · exact absurd hp (by decide)
  · cases hg
  · exact absurd hlt (by decide)
  · cases hzero
  · cases hg

end Examples

end TetraOS.Processes
