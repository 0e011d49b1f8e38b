import TetraOS.Processes.SchedulerRuns
import TetraOS.Processes.SystemCall

/-! From a submission to the program. What `submit_new_process` puts into a process is in its block in the kernel heap
until `run_next_process` passes it to `switch_to_process` (kernel/process/scheduler.cpp, kernel/process/process.s). -/

namespace TetraOS.Processes

open Memory Library.ByteMemory Library.BumpBlocks Library.LinkedList Library.Riscv PhysicalAllocator Relation

structure Launch where
  entry : Word
  stack : Word
  heapStart : Word

def Launch.args (l : Launch) : ℕ × ℕ × ℕ := (l.entry.toNat, l.stack.toNat, l.heapStart.toNat)

/-- The processor when `run_next_process` calls `switch_to_process`. -/
def callSwitch (args : ℕ × ℕ × ℕ) (c : Cpu) : Cpu :=
  exec switchToProcess (((c.set (.a 0) (BitVec.ofNat 64 args.1)).set (.a 1) (BitVec.ofNat 64 args.2.1)).set (.a 2)
    (BitVec.ofNat 64 args.2.2))

structure Entered (l : Launch) (c c' : Cpu) : Prop where
  pc : c'.pc = l.entry
  stack : c'.get .sp = l.stack
  heapStart : c'.get (.a 2) = l.heapStart
  sscratch : c'.csrs .sscratch = c.get .sp
  memory : c'.mem = c.mem

lemma get_sret (c : Cpu) (r : Reg) : (step c .sret).get r = c.get r := rfl

lemma callSwitch_entered (l : Launch) (c : Cpu) : Entered l c (callSwitch l.args c) := by
  have hargs : ∀ v : Word, BitVec.ofNat 64 v.toNat = v := fun v => by simp
  simp only [callSwitch, switchToProcess, Launch.args, hargs, exec_cons, exec_nil]
  constructor
  · simp [step, get_set]
  · rw [get_sret]
    simp [step, get_set]
  · rw [get_sret]
    simp [step, get_set]
  · simp [step, get_set]
  · rfl

structure Recorded {α : Type} (s : State α) (p : ℕ) (l : Launch) : Prop where
  entry : Process.getEntryAddress s p = some l.entry.toNat
  stack : Process.getStackPointer s p = some l.stack.toNat
  heapStart : Process.getHeapStartAddress s p = some l.heapStart.toNat

section Fields

variable {img : Image} {m : Memory} {s s' : State Frames} {blocks blocks' own : List Block} {this fuel p : ℕ}
    {items processes : List ℕ} {l : Launch} (hready : Ready img m)
include hready

lemma Recorded.congr (h : Recorded s p l) (hrun : KernelRun img m s blocks) (hrun' : KernelRun img m s' blocks')
    (hp : (p, 48) ∈ blocks) (hp' : (p, 48) ∈ blocks') (hview : ∀ x ∈ Block.range (p, 48), view s' x = view s x) :
    Recorded s' p l := by
  have hfield : ∀ a, p ≤ a → a + 8 ≤ p + 48 → loadBytes s' 8 a = loadBytes s 8 a := fun a hlo hhi =>
    hrun.loadBytes_congr hready hrun' hp hp' hlo hhi fun x hx hx' =>
      hview x (Block.mem_range.mpr ⟨hlo.trans hx, by omega⟩)
  refine ⟨?_, ?_, ?_⟩
  · rw [← h.entry]
    exact hfield (p + 40) (by omega) (by omega)
  · rw [← h.stack]
    exact hfield (p + 24) (by omega) (by omega)
  · rw [← h.heapStart]
    exact hfield (p + 32) (by omega) (by omega)

lemma constructor_fields {id : ℕ} {t₁ t₂ t₃ t₄ t₅ : State Frames} (hrun : KernelRun img m s blocks)
    (hk : operatorNew (kallocFrame (reserved img)) fuel s 48 = some (p, t₁)) (h₁ : storeBytes t₁ 8 p id = some t₂)
    (h₂ : storeBytes t₂ 8 (p + 32) l.heapStart.toNat = some t₃)
    (h₃ : storeBytes t₃ 8 (p + 24) l.stack.toNat = some t₄) (h₄ : storeBytes t₄ 8 (p + 40) l.entry.toNat = some t₅)
    (h₅ : storeBytes t₅ 4 (p + 8) 0 = some s') : Recorded s' p l := by
  obtain ⟨hrun₀, _, _, _⟩ := hrun.kalloc_spec hready (by norm_num) hk
  have hself : (p, 48) ∈ (p, 48) :: blocks := List.mem_cons_self
  obtain ⟨hrun₁, _⟩ := hrun₀.storeBytes hready hself (n := 8) le_rfl (by omega) h₁
  obtain ⟨hrun₂, _, hheap, _⟩ := hrun₁.storeField hready hself (by omega) (by omega) l.heapStart.isLt h₂
  obtain ⟨hrun₃, _, hstack, hview₃⟩ := hrun₂.storeField hready hself (by omega) (by omega) l.stack.isLt h₃
  obtain ⟨hrun₄, _, hentry, hview₄⟩ := hrun₃.storeField hready hself (by omega) (by omega) l.entry.isLt h₄
  obtain ⟨hrun₅, _, _, hview₅⟩ := hrun₄.storeBytes hready hself (n := 4) (by omega) (by omega) h₅
  have hlast : ∀ a, p + 12 ≤ a → a + 8 ≤ p + 48 → loadBytes s' 8 a = loadBytes t₅ 8 a := fun a hlo hhi =>
    hrun₄.loadBytes_congr hready hrun₅ hself hself (by omega) hhi fun x hx hx' => by
      rw [hview₅ x (hrun₅.inHeap hready hself (Block.mem_range.mpr ⟨by omega, by omega⟩)), store_outside (by omega)]
  refine ⟨?_, ?_, ?_⟩
  · rw [Process.getEntryAddress, hlast _ (by omega) (by omega), hentry]
  · rw [Process.getStackPointer, hlast _ (by omega) (by omega),
      hrun₃.loadBytes_other hready hrun₄ hself (by omega) (by omega) hview₄ (by omega), hstack]
  · rw [Process.getHeapStartAddress, hlast _ (by omega) (by omega),
      hrun₃.loadBytes_other hready hrun₄ hself (by omega) (by omega) hview₄ (by omega),
      hrun₂.loadBytes_other hready hrun₃ hself (by omega) (by omega) hview₃ (by omega), hheap]

lemma newProcess_recorded {home id : ℕ} (hrun : KernelRun img m s blocks) (htext : Steady img s home homeDirectory)
    (hid : id < 2 ^ 64) (hn : newProcess s (kallocFrame (reserved img)) fuel home id l.entry.toNat l.stack.toNat
      l.heapStart.toNat = some (p, s')) : Recorded s' p l := by
  obtain ⟨⟨q, t₁⟩, hk, hn⟩ := Option.bind_eq_some_iff.mp hn
  obtain ⟨t₂, h₂, hn⟩ := Option.bind_eq_some_iff.mp hn
  obtain ⟨t₃, h₃, hn⟩ := Option.bind_eq_some_iff.mp hn
  obtain ⟨t₄, h₄, hn⟩ := Option.bind_eq_some_iff.mp hn
  obtain ⟨t₅, h₅, hn⟩ := Option.bind_eq_some_iff.mp hn
  obtain ⟨t₆, h₆, hn⟩ := Option.bind_eq_some_iff.mp hn
  obtain ⟨⟨path, t₇⟩, hpath, hn⟩ := Option.bind_eq_some_iff.mp hn
  obtain ⟨t₈, h₈, hn⟩ := Option.bind_eq_some_iff.mp hn
  obtain ⟨rfl, rfl⟩ := Prod.mk.inj (Option.some.inj hn)
  obtain ⟨_, hrun₆, hfl₆, _⟩ := constructor_spec hready hrun hid hk h₂ h₃ h₄ h₅ h₆
  have hfields : Recorded t₆ q l := constructor_fields hready hrun hk h₂ h₃ h₄ h₅ h₆
  obtain ⟨buf, hrun₇, _, _, _, hkept₇, _⟩ :=
    newPath_spec hready hrun₆ (htext.of_steps (constructor_steps hk h₂ h₃ h₄ h₅ h₆)) homeDirectory_nonzero hpath
  have hmem : (q, 48) ∈ (buf, homeDirectory.length) :: (path, 8) :: (q, 48) :: blocks := by simp
  have hfields₇ : Recorded t₇ q l := hfields.congr hready hrun₆ hrun₇ List.mem_cons_self hmem fun x hx => by
    obtain ⟨hlo, hhi, _⟩ := (hrun₆.heapInv hready).mem_range List.mem_cons_self hx
    exact hkept₇ x hlo hhi
  obtain ⟨hrun₈, _, _, hview₈⟩ := hrun₇.storeField hready hmem (by omega) (by omega)
    (hrun₇.lt hready (b := (path, 8)) (by simp)) h₈
  have hother : ∀ a, q + 24 ≤ a → a + 8 ≤ q + 48 → loadBytes t₈ 8 a = loadBytes t₇ 8 a := fun a hlo hhi =>
    hrun₇.loadBytes_other hready hrun₈ hmem (by omega) hhi hview₈ (by omega)
  refine ⟨?_, ?_, ?_⟩
  · rw [← hfields₇.entry]
    exact hother _ (by omega) (by omega)
  · rw [← hfields₇.stack]
    exact hother _ (by omega) (by omega)
  · rw [← hfields₇.heapStart]
    exact hother _ (by omega) (by omega)

lemma Scheduled.recorded {home : ℕ} (h : Scheduled img m s blocks own this items processes)
    (htext : OffHeap img s blocks home homeDirectory)
    (hs : submitProcess s (kallocFrame (reserved img)) fuel this home l.entry.toNat l.stack.toNat l.heapStart.toNat =
      some (p, s')) :
    Recorded s' p l ∧ ∀ q ∈ processes, ∀ x ∈ Block.range (q, 48), view s' x = view s x := by
  obtain ⟨q, hlater⟩ := h.submitted hready htext hs
  obtain ⟨id, t₁, t, hid, hrun₁, htext₁, hnew, hsub⟩ := h.submission hready htext hs
  have hfields : Recorded t p l := newProcess_recorded hready hrun₁ htext₁ hid hnew
  have hstart := (KernelInv.run hready h.run).kernel.start
  have hbehind := hsub.behind
  refine ⟨?_, fun q hq x hx => ?_⟩
  · have hp : (p, 48) ∈ (p + 88, 11) :: (p + 64, 8) :: (p, 48) :: blocks := by simp
    refine hfields.congr hready hsub.run hlater.run hp (hlater.owned _ (hlater.processBlocks p (by simp)))
      fun x hx => ?_
    rw [Block.mem_range] at hx
    refine hsub.linked x (by omega) (by omega) fun b hb _ hin => ?_
    have hbelow := (h.run.heapInv hready).blocks.below b (h.owned b hb)
    rw [Block.mem_range] at hin
    omega
  · have hblock := h.owned _ (h.processBlocks q hq)
    obtain ⟨h₁, h₂, _⟩ := (h.run.heapInv hready).mem_range hblock hx
    have hout : ∀ b ∈ own, b.2 = 24 → x ∉ b.range := fun b hb hsize hin => by
      have hne : b ≠ (q, 48) := fun heq => by simp [heq] at hsize
      have := (Layout.run hready h.run).consecutive.apart_of_ne (h.owned b hb) hblock hne
      rw [Block.mem_range] at hx hin
      dsimp only at this
      omega
    rw [hsub.linked x h₁ (by omega) hout, hsub.made x h₁ h₂ hout]

end Fields

inductive LaunchRun (img : Image) (m : Memory) (home : ℕ) :
    State Frames → List Block → List Block → ℕ → List ℕ → List Launch → Prop
  | created {s s' blocks fuel this} : KernelRun img m s blocks →
      newScheduler s (kallocFrame (reserved img)) fuel = some (this, s') →
      LaunchRun img m home s' ((this, 24) :: blocks) [(this, 24)] this [] []
  | others {s s' blocks blocks' own this processes launches} :
      LaunchRun img m home s blocks own this processes launches →
      OthersStep img own (s, blocks) (s', blocks') → LaunchRun img m home s' blocks' own this processes launches
  | submitted {s s' blocks own this processes launches fuel p} (l : Launch) :
      LaunchRun img m home s blocks own this processes launches → OffHeap img s blocks home homeDirectory →
      submitProcess s (kallocFrame (reserved img)) fuel this home l.entry.toNat l.stack.toNat l.heapStart.toNat =
        some (p, s') →
      LaunchRun img m home s' (submissionBlocks p ++ blocks) (submissionBlocks p ++ own) this (processes ++ [p])
        (launches ++ [l])
  | dispatched {s s' blocks own this processes launches fuel args} :
      LaunchRun img m home s blocks own this processes launches →
      runNextProcess s fuel this = some (args, s') → LaunchRun img m home s' blocks own this processes launches

structure Launched (img : Image) (m : Memory) (s : State Frames) (blocks own : List Block) (this : ℕ)
    (items processes : List ℕ) (launches : List Launch) : Prop where
  scheduled : Scheduled img m s blocks own this items processes
  recorded : List.Forall₂ (Recorded s) processes launches

section Runs

variable {img : Image} {m : Memory} {s s' : State Frames} {blocks blocks' own : List Block} {this fuel p home : ℕ}
    {items processes : List ℕ} {l : Launch} {launches : List Launch} (hready : Ready img m)
include hready

lemma Launched.recorded_congr (h : Launched img m s blocks own this items processes launches)
    (hrun' : KernelRun img m s' blocks') (hsub : ∀ b ∈ blocks, b ∈ blocks')
    (hview : ∀ q ∈ processes, ∀ x ∈ Block.range (q, 48), view s' x = view s x) :
    List.Forall₂ (Recorded s') processes launches := by
  have hmem : List.Forall₂ (fun q l => q ∈ processes ∧ Recorded s q l) processes launches :=
    (List.forall₂_and_left _ _).mpr ⟨fun _ hq => hq, h.recorded⟩
  refine hmem.imp fun q l hq => ?_
  have hblock := h.scheduled.owned _ (h.scheduled.processBlocks q hq.1)
  exact hq.2.congr hready h.scheduled.run hrun' hblock (hsub _ hblock) (hview q hq.1)

lemma Launched.others (h : Launched img m s blocks own this items processes launches)
    (hstep : OthersStep img own (s, blocks) (s', blocks')) :
    Launched img m s' blocks' own this items processes launches := by
  have hs := h.scheduled
  obtain ⟨hrun', hkept, _, later, rfl, _⟩ := others_run hready hs.run hs.owned (ReflTransGen.single hstep)
  exact ⟨hs.others hready hstep, h.recorded_congr hready hrun' (fun b hb => List.mem_append_right _ hb) fun q hq =>
    hkept _ (hs.processBlocks q hq)⟩

lemma Launched.submitted (h : Launched img m s blocks own this items processes launches)
    (htext : OffHeap img s blocks home homeDirectory)
    (hs : submitProcess s (kallocFrame (reserved img)) fuel this home l.entry.toNat l.stack.toNat l.heapStart.toNat =
      some (p, s')) :
    ∃ q, Launched img m s' (submissionBlocks p ++ blocks) (submissionBlocks p ++ own) this (items ++ [q])
      (processes ++ [p]) (launches ++ [l]) := by
  obtain ⟨q, hlater⟩ := h.scheduled.submitted hready htext hs
  obtain ⟨hnew, hkept⟩ := h.scheduled.recorded hready htext hs
  have hold := h.recorded_congr hready hlater.run (fun b hb => List.mem_append_right _ hb) hkept
  exact ⟨q, hlater, List.rel_append hold (.cons hnew .nil)⟩

lemma Launched.recorded_current {process : ℕ} (h : Launched img m s blocks own this items processes launches)
    (hstore : storeBytes s 8 this process = some s') : List.Forall₂ (Recorded s') processes launches := by
  have hs := h.scheduled
  obtain ⟨hrun', _, _, hview⟩ :=
    hs.run.storeBytes hready (hs.owned _ hs.scheduler) (n := 8) le_rfl (by omega) hstore
  refine h.recorded_congr hready hrun' (fun b hb => hb) fun q hq x hx => ?_
  have hblock := hs.processBlocks q hq
  have hout := hs.apart hready _ hblock process_ne x hx
  rw [hview x (hs.run.inHeap hready (hs.owned _ hblock) hx), store_outside (by omega)]

lemma Launched.dispatched {args : ℕ × ℕ × ℕ} (h : Launched img m s blocks own this items processes launches)
    (hr : runNextProcess s fuel this = some (args, s')) :
    Launched img m s' blocks own this items processes launches := by
  obtain ⟨process, hstore⟩ := runNextProcess_stores hr
  exact ⟨h.scheduled.dispatched hready hr, h.recorded_current hready hstore⟩

lemma LaunchRun.launched (h : LaunchRun img m home s blocks own this processes launches) :
    ∃ items, Launched img m s blocks own this items processes launches := by
  induction h with
  | created hrun hn => exact ⟨[], scheduled_new hready hrun hn, .nil⟩
  | others _ hstep ih =>
    obtain ⟨items, hl⟩ := ih
    exact ⟨items, hl.others hready hstep⟩
  | submitted l _ htext hs ih =>
    obtain ⟨items, hl⟩ := ih
    obtain ⟨q, hq⟩ := hl.submitted hready htext hs
    exact ⟨items ++ [q], hq⟩
  | dispatched _ hr ih =>
    obtain ⟨items, hl⟩ := ih
    exact ⟨items, hl.dispatched hready hr⟩

/-- The search stops at the first process, which never stops being ready. -/
lemma Launched.runNextProcess (h : Launched img m s blocks own this items (p :: processes) (l :: launches))
    (fuel : ℕ) :
    ∃ s', runNextProcess s (fuel + 1) this = some (l.args, s') ∧ Scheduler.currentProcess s' this = some p := by
  have hs := h.scheduled
  cases items with
  | nil => exact absurd hs.listed.processes (by simp)
  | cons a rest =>
    obtain ⟨hitem, _⟩ := List.cons.inj hs.listed.processes
    have hfirst : Process.isReady s p = some true := hs.numbered.ready p List.mem_cons_self
    have hfound : findReady s (fuel + 1) a = some a := by
      simp [findReady, search, hitem, hfirst]
    obtain ⟨s', hstore, _⟩ :=
      hs.run.storeBytes_run hready (hs.owned _ hs.scheduler) (n := 8) (a := this) p le_rfl (by omega)
    obtain ⟨_, _, hcurrent, _⟩ := hs.run.storeField hready (hs.owned _ hs.scheduler) le_rfl (by omega)
      (hs.run.lt hready (hs.owned _ (hs.processBlocks p List.mem_cons_self))) hstore
    have hview : Recorded s' p l := (List.forall₂_cons.mp (h.recorded_current hready hstore)).1
    refine ⟨s', ?_, hcurrent⟩
    simp only [Processes.runNextProcess, hs.listed.first, List.headD_cons, hfound, hitem, hstore, hview.entry,
      hview.stack, hview.heapStart, Option.bind_eq_bind, Option.bind_some, Launch.args]

omit hready in
lemma LaunchRun.schedulerRun (h : LaunchRun img m home s blocks own this processes launches) :
    SchedulerRun img m home s blocks own this processes := by
  induction h with
  | created hrun hn => exact .created hrun hn
  | others _ hstep ih => exact .others ih hstep
  | submitted l _ htext hs ih => exact .submitted ih htext hs
  | dispatched _ hr ih => exact .dispatched ih hr

lemma Scheduled.dispatched_left {args : ℕ × ℕ × ℕ} (h : Scheduled img m s blocks own this items processes)
    (hr : Processes.runNextProcess s fuel this = some (args, s')) :
    framesLeft img s'.mem = framesLeft img s.mem := by
  obtain ⟨process, hstore⟩ := runNextProcess_stores hr
  exact (h.run.storeBytes hready (h.owned _ h.scheduler) (n := 8) le_rfl (by omega) hstore).2.2.1

end Runs

/-- In every run, every dispatch starts the process that was submitted first, with the entry, the stack pointer and the
heap it was submitted with, and the processor ends up in it. The later processes wait for ever. -/
theorem dispatch_starts_first (img : Image) (m : Memory) (hready : Ready img m) (home : ℕ) (s : State Frames)
    (blocks own : List Block) (this p : ℕ) (processes : List ℕ) (l : Launch) (launches : List Launch)
    (h : LaunchRun img m home s blocks own this (p :: processes) (l :: launches)) (fuel : ℕ) (c : Cpu) :
    ∃ args s', runNextProcess s (fuel + 1) this = some (args, s') ∧ Scheduler.currentProcess s' this = some p ∧
      LaunchRun img m home s' blocks own this (p :: processes) (l :: launches) ∧ Entered l c (callSwitch args c) := by
  obtain ⟨items, hl⟩ := h.launched hready
  obtain ⟨s', hr, hcurrent⟩ := hl.runNextProcess hready fuel
  exact ⟨l.args, s', hr, hcurrent, h.dispatched hr, callSwitch_entered l c⟩

section Examples

def smallLaunch : Launch := ⟨0x10000, 0x100FA0, 0x12000⟩
def laterLaunch : Launch := ⟨0x20000, 0x100FA0, 0x22000⟩

/-- One process, and then another one. The text of their path is in the lower half, where no submission writes. -/
lemma launchRun_first (l : Launch) : ∃ s blocks own this p i,
    LaunchRun megabyteImage (fun _ => 0) 0x10000 s blocks own this [p] [l] ∧
      Scheduled megabyteImage (fun _ => 0) s blocks own this [i] [p] ∧ 31000 ≤ framesLeft megabyteImage s.mem ∧
      OffHeap megabyteImage s blocks 0x10000 homeDirectory := by
  obtain ⟨s, hrun, hchars, hzero, hleft⟩ := text_page homeDirectory (by decide)
  obtain ⟨this, t, hnew, hsteps, hleft₁⟩ := newScheduler_isSome megabyteImage_ready hrun (by omega)
  have hs := scheduled_new megabyteImage_ready hrun hnew
  have hheld := holds_lower (hrun.heapInv megabyteImage_ready) ⟨hchars, hzero⟩ (by decide) hsteps
  have htext : OffHeap megabyteImage t [(this, 24)] 0x10000 homeDirectory := fun _ _ hlater =>
    holds_lower (hs.run.heapInv megabyteImage_ready) hheld (by decide) hlater
  obtain ⟨p, t', bs, hsubmit, hsteps', hleft₂⟩ := submitProcess_isSome l.entry.toNat l.stack.toNat l.heapStart.toNat
    megabyteImage_ready hs htext (by decide) (by omega)
  have hheld' := holds_lower (hs.run.heapInv megabyteImage_ready) hheld (by decide) hsteps'
  obtain ⟨i, hs'⟩ := hs.submitted megabyteImage_ready htext hsubmit
  exact ⟨t', _, _, this, p, i, .submitted l (.created hrun hnew) htext hsubmit, hs', by omega, fun _ _ hlater =>
    holds_lower (hs'.run.heapInv megabyteImage_ready) hheld' (by decide) hlater⟩

/-- A program at the second page of the address space and one behind it. The first one is dispatched, on a processor
with a stack of the kernel. -/
theorem dispatch_starts_first_two : ∃ s blocks own this p q args s',
    LaunchRun megabyteImage (fun _ => 0) 0x10000 s blocks own this [p, q] [smallLaunch, laterLaunch] ∧
      runNextProcess s 1 this = some (args, s') ∧ Scheduler.currentProcess s' this = some p ∧
      (callSwitch args beforeSwitch).pc = 0x10000 ∧ (callSwitch args beforeSwitch).get .sp = 0x100FA0 ∧
      (callSwitch args beforeSwitch).csrs .sscratch = 0xFFFF800080002000 := by
  obtain ⟨s, blocks, own, this, p, i, hrun, hs, hleft, htext⟩ := launchRun_first smallLaunch
  obtain ⟨q, s₁, _, hsubmit, _⟩ := submitProcess_isSome laterLaunch.entry.toNat laterLaunch.stack.toNat
    laterLaunch.heapStart.toNat megabyteImage_ready hs htext (by simp) (by omega)
  have hrun₁ := LaunchRun.submitted laterLaunch hrun htext hsubmit
  obtain ⟨args, s', hr, hcurrent, _, hentered⟩ :=
    dispatch_starts_first _ _ megabyteImage_ready _ _ _ _ _ _ _ _ _ hrun₁ 0 beforeSwitch
  exact ⟨s₁, _, _, this, p, q, args, s', hrun₁, hr, hcurrent, hentered.pc, hentered.stack, hentered.sscratch⟩

end Examples

end TetraOS.Processes
