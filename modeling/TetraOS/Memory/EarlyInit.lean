import TetraOS.Library.MemoryProgram
import TetraOS.Memory.BootMapping
import TetraOS.Memory.FrameRuns

/-! What the kernel touches from its start to `switch_to_new_page_table`, while it still runs in the pages that `_start`
has mapped (kernel/memory/physical_allocator.cpp, kernel/memory/paging.cpp): the flags, and the first two tables. -/

namespace TetraOS.Memory.EarlyInit

open Library.ByteMemory Library.MemoryProgram Library.Riscv VirtualPage PageTable PhysicalAllocator

/-! The functions of the frame allocator and of the page tables, with each of their accesses. -/

def setPageframeFree (flags : ℕ) : Program Unit := .store 1 flags 0 (.done ())
def setPageframeAllocated (flags : ℕ) : Program Unit := .store 1 flags 1 (.done ())
def isFree (flags : ℕ) : Program Bool := .load 1 flags fun v => .done (v == 0)

def clearFlags (start n : ℕ) : Program Unit := Program.loop (fun i => setPageframeFree (start + i)) n

def physicalAllocatorInit (img : Image) : Program Frames := do
  clearFlags (placed img).managedFramesAddressStart (numFrames img)
  return placed img

def findFree : ℕ → ℕ → ℕ → Program (ℕ × ℕ)
  | 0, _, _ => .fail
  | limit + 1, flags, index => do
    if ← isFree flags then return (flags, index) else findFree limit (flags + 1) ((index + 1) % 2 ^ 32)

def kallocFrame (limit : ℕ) (a : Frames) : Program ℕ := do
  let (flags, index) ← findFree limit a.managedFramesAddressStart 0
  setPageframeAllocated flags
  return (a.firstFrameAddress + index * frameSize % 2 ^ 32) % 2 ^ 64

def setEntry (table : ℕ) (index : Fin 512) (entry : ℕ) : Program Unit := .store 8 (table + 8 * index) entry (.done ())

def mapPageForSetup (firstTable secondTable pageToMap frame : ℕ) : Program Unit := do
  setEntry firstTable (getVpn3 pageToMap) (createValidPageTableEntry (getPpn secondTable))
  setEntry secondTable (getVpn2 pageToMap) (createValidPageTableEntry (PhysicalFrame.getPpn frame) ||| 0xF)

def setupLoop (firstTable secondTable : ℕ) : Program Unit :=
  Program.loop (fun i => mapPageForSetup firstTable secondTable (virtualOffset + i * gigabyteBytes)
    (i * gigabyteBytes)) 4

/-- `paging_init` up to `switch_to_new_page_table`, with the two frames that it has taken. -/
def pagingInit (limit : ℕ) (a : Frames) : Program (ℕ × ℕ) := do
  let firstFrame ← kallocFrame limit a
  let secondFrame ← kallocFrame limit a
  let firstTable := (firstFrame + virtualOffset) % 2 ^ 64
  let secondTable := (secondFrame + virtualOffset) % 2 ^ 64
  setupLoop firstTable secondTable
  return (firstFrame, secondFrame)

def earlyInit (img : Image) (limit : ℕ) : Program (ℕ × ℕ) := do
  let a ← physicalAllocatorInit img
  pagingInit limit a

def direct : Translation := fun _ a => some (physical a)

lemma findFree_le {m : Memory} {limit flags index : ℕ} {r : ℕ × ℕ}
    (h : PhysicalAllocator.findFree m limit flags index = some r) : flags ≤ r.1 := by
  induction limit generalizing flags index with
  | zero => cases h
  | succ limit ih =>
    rw [PhysicalAllocator.findFree] at h
    split at h
    · rw [← Option.some.inj h]
    · exact (Nat.le_succ flags).trans (ih h)

lemma findFree_first {m : Memory} {limit flags index : ℕ} (hl : 1 ≤ limit)
    (hf : PhysicalAllocator.isFree m flags = true) :
    PhysicalAllocator.findFree m limit flags index = some (flags, index) := by
  obtain ⟨limit, rfl⟩ : ∃ l, limit = l + 1 := ⟨limit - 1, by omega⟩
  rw [PhysicalAllocator.findFree, if_pos hf]

lemma findFree_second {m : Memory} {limit flags : ℕ} (hl : 2 ≤ limit) (hf : PhysicalAllocator.isFree m flags = false)
    (hf' : PhysicalAllocator.isFree m (flags + 1) = true) :
    PhysicalAllocator.findFree m limit flags 0 = some (flags + 1, 1) := by
  obtain ⟨limit, rfl⟩ : ∃ l, limit = l + 1 := ⟨limit - 1, by omega⟩
  rw [PhysicalAllocator.findFree, hf, if_neg Bool.false_ne_true, findFree_first (by omega) hf']
  rfl

lemma frame_mod {img : Image} {i : ℕ} (hstart : img.physicalHeapStart ≤ 2 ^ 32) (hi : i < 2 ^ 20) :
    ((placed img).firstFrameAddress + i * frameSize % 2 ^ 32) % 2 ^ 64 = frame img i := by
  simp only [frame, placed_eq hstart, alignedStart, frameSize]
  omega

section Rules

variable {ok : Access → Prop} {m : Memory}

lemma setPageframeFree_stays {flags : ℕ} {Q : Unit → Memory → Prop} (hok : ok ⟨flags, 1⟩)
    (hQ : Q () (PhysicalAllocator.setPageframeFree m flags)) : (setPageframeFree flags).Stays direct ok m Q := by
  refine ⟨hok, _, rfl, ?_⟩
  rw [store_one]
  exact hQ

lemma setPageframeAllocated_stays {flags : ℕ} {Q : Unit → Memory → Prop} (hok : ok ⟨flags, 1⟩)
    (hQ : Q () (PhysicalAllocator.setPageframeAllocated m flags)) :
    (setPageframeAllocated flags).Stays direct ok m Q := by
  refine ⟨hok, _, rfl, ?_⟩
  rw [store_one]
  exact hQ

lemma isFree_stays {flags : ℕ} {Q : Bool → Memory → Prop} (hok : ok ⟨flags, 1⟩)
    (hQ : Q (PhysicalAllocator.isFree m flags) m) : (isFree flags).Stays direct ok m Q := by
  refine ⟨hok, _, rfl, ?_⟩
  have hfree : (load m 1 (physical flags) == 0) = PhysicalAllocator.isFree m flags := by
    rw [load_one, PhysicalAllocator.isFree, Bool.eq_iff_iff, beq_iff_eq, beq_iff_eq, ← UInt8.toNat_inj]
    rfl
  change Q (load m 1 (physical flags) == 0) m
  rw [hfree]
  exact hQ

lemma clearFlags_stays {start n : ℕ} {Q : Unit → Memory → Prop} (hok : ∀ i < n, ok ⟨start + i, 1⟩)
    (hQ : Q () (PhysicalAllocator.clearFlags m start n)) : (clearFlags start n).Stays direct ok m Q := by
  refine Program.Stays.loop (I := fun i m' => m' = PhysicalAllocator.clearFlags m start i) rfl ?_ ?_
  · rintro i hi m' rfl
    exact setPageframeFree_stays (hok i hi) rfl
  · rintro m' rfl
    exact hQ

lemma findFree_stays {limit flags index : ℕ} {r : ℕ × ℕ} {Q : ℕ × ℕ → Memory → Prop}
    (h : PhysicalAllocator.findFree m limit flags index = some r) (hok : ∀ a, flags ≤ a → a ≤ r.1 → ok ⟨a, 1⟩)
    (hQ : Q r m) : (findFree limit flags index).Stays direct ok m Q := by
  induction limit generalizing flags index with
  | zero => cases h
  | succ limit ih =>
    have hle := findFree_le h
    rw [PhysicalAllocator.findFree] at h
    refine Program.Stays.bind (isFree_stays (hok flags le_rfl hle) ?_)
    split at h
    · rename_i hf
      rw [if_pos hf]
      obtain rfl := Option.some.inj h
      exact hQ
    · rename_i hf
      rw [if_neg hf]
      exact ih h fun a ha => hok a (by omega)

lemma kallocFrame_stays {img : Image} {limit i : ℕ} {Q : ℕ → Memory → Prop} (hstart : img.physicalHeapStart ≤ 2 ^ 32)
    (hi : i < 2 ^ 20)
    (h : PhysicalAllocator.findFree m limit (placed img).managedFramesAddressStart 0 = some (flag img i, i))
    (hok : ∀ j ≤ i, ok ⟨flag img j, 1⟩)
    (hQ : Q (frame img i) (PhysicalAllocator.setPageframeAllocated m (flag img i))) :
    (kallocFrame limit (placed img)).Stays direct ok m Q := by
  refine Program.Stays.bind (findFree_stays h (fun a ha ha' => ?_) ?_)
  · have hj := hok (a - (placed img).managedFramesAddressStart) (by rw [flag] at ha'; omega)
    rwa [flag, Nat.add_sub_cancel' ha] at hj
  · refine Program.Stays.bind (setPageframeAllocated_stays (hok i le_rfl) ?_)
    change Q _ _
    rw [frame_mod hstart hi]
    exact hQ

lemma mapPageForSetup_stays {firstTable secondTable pageToMap f : ℕ} {Q : Unit → Memory → Prop}
    (hfirst : ∀ j : Fin 512, ok ⟨firstTable + 8 * j, 8⟩) (hsecond : ∀ j : Fin 512, ok ⟨secondTable + 8 * j, 8⟩)
    (hQ : Q () (Memory.mapPageForSetup m firstTable secondTable pageToMap f)) :
    (mapPageForSetup firstTable secondTable pageToMap f).Stays direct ok m Q :=
  ⟨hfirst _, _, rfl, hsecond _, _, rfl, hQ⟩

lemma setupLoop_stays {firstTable secondTable : ℕ} {Q : Unit → Memory → Prop}
    (hfirst : ∀ j : Fin 512, ok ⟨firstTable + 8 * j, 8⟩) (hsecond : ∀ j : Fin 512, ok ⟨secondTable + 8 * j, 8⟩)
    (hQ : Q () (Memory.setupLoop m firstTable secondTable)) :
    (setupLoop firstTable secondTable).Stays direct ok m Q := by
  refine Program.Stays.loop (I := fun i m' => m' = (List.range i).foldl (fun m i => Memory.mapPageForSetup m firstTable
    secondTable (virtualOffset + i * gigabyteBytes) (i * gigabyteBytes)) m) rfl ?_ ?_
  · rintro i hi m' rfl
    refine mapPageForSetup_stays hfirst hsecond ?_
    rw [List.range_succ, List.foldl_append, List.foldl_cons, List.foldl_nil]
  · rintro m' rfl
    exact hQ

end Rules

structure Behind (img : BootImage) (e : Access) : Prop where
  image : virtualOffset + img.kernelEnd ≤ e.address
  extra : e.address + e.length ≤ virtualOffset + (img.kernelEnd + 4096 * extraPages)
  aligned : e.address % e.length = 0

def taken (img : Image) (m : Memory) : Memory :=
  PhysicalAllocator.setPageframeAllocated (PhysicalAllocator.setPageframeAllocated
    (PhysicalAllocator.physicalAllocatorInit img m).1 (flag img 0)) (flag img 1)

def tableOf (img : Image) (i : ℕ) : ℕ := (frame img i + virtualOffset) % 2 ^ 64

def initialised (img : Image) (m : Memory) : Memory := Memory.setupLoop (taken img m) (tableOf img 0) (tableOf img 1)

def Initialises (img : Image) (m : Memory) (frames : ℕ × ℕ) (m' : Memory) : Prop :=
  frames = (frame img 0, frame img 1) ∧ m' = initialised img m

section Init

variable {img : BootImage} (hpages : img.pages ≤ 512)
include hpages

lemma numFrames_bounds : 2 ≤ numFrames img.toImage ∧ numFrames img.toImage ≤ 2 ^ 19 := by
  have hstart := (kernelStart_lt img).le
  have hsize := (pages_le_iff_size img).mp hpages
  have hend := img.memoryEnd
  rw [kernelStart, BootImage.kernelEnd] at hstart hsize
  rw [numFrames_eq img.fits (by omega) hend.le]
  omega

lemma flag_behind {j : ℕ} (hj : j < numFrames img.toImage) : Behind img ⟨flag img.toImage j, 1⟩ := by
  have hn := (numFrames_bounds hpages).2
  have hflag : flag img.toImage j = virtualOffset + (alignedStart img.toImage + j) := by
    rw [flag, placed_eq (kernelEnd_le img), Nat.add_comm (alignedStart _), Nat.add_assoc]
  refine ⟨?_, ?_, Nat.mod_one _⟩
  · simp only [hflag, alignedStart, BootImage.kernelEnd]
    omega
  · simp only [hflag, alignedStart, BootImage.kernelEnd, extraPages]
    omega

omit hpages in
lemma tableOf_eq (i : ℕ) (hi : i < 2) :
    tableOf img.toImage i = virtualOffset + (alignedStart img.toImage + 32768 + 4096 * i) := by
  have hend := kernelEnd_le img
  rw [tableOf, frame_eq hend, Nat.add_comm, Nat.mod_eq_of_lt]
  rw [BootImage.kernelEnd] at hend
  simp only [alignedStart, virtualOffset]
  omega

omit hpages in
lemma entry_behind {i : ℕ} (hi : i < 2) (j : Fin 512) : Behind img ⟨tableOf img.toImage i + 8 * j, 8⟩ := by
  have hj := j.isLt
  rw [tableOf_eq i hi]
  refine ⟨?_, ?_, ?_⟩
  · simp only [alignedStart, BootImage.kernelEnd]
    omega
  · simp only [alignedStart, BootImage.kernelEnd, extraPages]
    omega
  · simp only [alignedStart, virtualOffset]
    omega

variable {limit : ℕ} (hlimit : 2 ≤ limit) (m : Memory)
include hlimit

lemma findFree_init :
    PhysicalAllocator.findFree (PhysicalAllocator.physicalAllocatorInit img.toImage m).1 limit
      (placed img.toImage).managedFramesAddressStart 0 = some (flag img.toImage 0, 0) ∧
    PhysicalAllocator.findFree (PhysicalAllocator.setPageframeAllocated
      (PhysicalAllocator.physicalAllocatorInit img.toImage m).1 (flag img.toImage 0)) limit
      (placed img.toImage).managedFramesAddressStart 0 = some (flag img.toImage 1, 1) := by
  have hn := (numFrames_bounds hpages).1
  have hend := kernelEnd_le img
  have hzero : flag img.toImage 0 = (placed img.toImage).managedFramesAddressStart := Nat.add_zero _
  have hone : flag img.toImage 1 = (placed img.toImage).managedFramesAddressStart + 1 := rfl
  have hfree : ∀ i < 2, PhysicalAllocator.isFree (PhysicalAllocator.physicalAllocatorInit img.toImage m).1
      (flag img.toImage i) = true := fun i hi => isFree_init m (by omega)
  rw [hone, ← hzero]
  refine ⟨findFree_first (by omega) (hfree 0 (by omega)), findFree_second hlimit ?_ ?_⟩
  · rw [PhysicalAllocator.setPageframeAllocated, isFree_update hend (by norm_num) (by norm_num), if_pos rfl]
    rfl
  · rw [hzero, ← hone, ← hzero, PhysicalAllocator.setPageframeAllocated,
      isFree_update hend (by norm_num) (by norm_num), if_neg one_ne_zero]
    exact hfree 1 (by omega)

lemma earlyInit_stays : (earlyInit img.toImage limit).Stays direct (Behind img) m (Initialises img.toImage m) := by
  have hn := (numFrames_bounds hpages).1
  have hend := kernelEnd_le img
  obtain ⟨hfirst, hsecond⟩ := findFree_init hpages hlimit m
  have hflag : ∀ i < 2, ∀ j ≤ i, Behind img ⟨flag img.toImage j, 1⟩ := fun i hi j hj =>
    flag_behind hpages (by omega)
  refine Program.Stays.bind (Program.Stays.bind (clearFlags_stays (fun i hi => flag_behind hpages hi) ?_))
  refine Program.Stays.bind (kallocFrame_stays hend (by norm_num) hfirst (hflag 0 (by omega)) ?_)
  refine Program.Stays.bind (kallocFrame_stays hend (by norm_num) hsecond (hflag 1 (by omega)) ?_)
  exact Program.Stays.bind (setupLoop_stays (entry_behind (by omega)) (entry_behind (by omega)) ⟨rfl, rfl⟩)

/-- With its accesses, `paging_init` does to the state what it does without them. -/
theorem earlyInit_pagingInit (s : State Frames)
    (hs : (s.mem, s.frames) = PhysicalAllocator.physicalAllocatorInit img.toImage m) :
    ∃ f₁ f₂ m', (earlyInit img.toImage limit).run direct m = some ((f₁, f₂), m') ∧
      Memory.pagingInit (PhysicalAllocator.kallocFrame limit) s = some { s with
        mem := m'
        firstLevelTable := (f₁ + virtualOffset) % 2 ^ 64
        satp := PhysicalFrame.getPpn f₁ } := by
  have hmem : s.mem = (PhysicalAllocator.physicalAllocatorInit img.toImage m).1 := congrArg Prod.fst hs
  have hframes : s.frames = placed img.toImage := congrArg Prod.snd hs
  obtain ⟨⟨f₁, f₂⟩, m', hrun, hr, rfl⟩ := (earlyInit_stays hpages hlimit m).run
  obtain ⟨rfl, rfl⟩ := Prod.mk.inj hr
  obtain ⟨hfirst, hsecond⟩ := findFree_init hpages hlimit m
  have hend := kernelEnd_le img
  have hframe : ∀ i < 2, ((placed img.toImage).firstFrameAddress + i * frameSize % 2 ^ 32) % 2 ^ 64 =
    frame img.toImage i := fun i hi => frame_mod hend (by omega)
  refine ⟨_, _, _, hrun, ?_⟩
  simp only [Memory.pagingInit, State.kallocFrame, PhysicalAllocator.kallocFrame, hmem, hframes, hfirst, hsecond,
    Option.map_some, Option.bind_eq_bind, Option.bind_some, hframe 0 (by omega), hframe 1 (by omega)]
  rfl

end Init

structure TablesOnly (img : BootImage) (g : Memory → Memory) : Prop where
  outside : ∀ m x, x < img.tables ∨ img.tables + 7 * 4096 ≤ x → g m x = m x
  congr : ∀ m m' x, m' x = m x → g m' x = g m x

namespace TablesOnly

variable {img : BootImage}

lemma comp {f g : Memory → Memory} (hg : TablesOnly img g) (hf : TablesOnly img f) :
    TablesOnly img fun m => g (f m) where
  outside m x hx := (hg.outside _ x hx).trans (hf.outside m x hx)
  congr m m' x h := hg.congr _ _ x (hf.congr m m' x h)

lemma setEntry {number : ℕ} (hn : number < 7) (index : Fin 512) (a flags : ℕ) :
    TablesOnly img fun m => img.setEntry m number index a flags where
  outside m x hx := store_outside (by have := index.isLt; omega)
  congr m m' x h := store_congr fun _ => h

lemma mapAddress (va p : ℕ) : TablesOnly img fun m => img.mapAddress m va p :=
  (setEntry (by decide) _ _ _).comp ((setEntry (by decide) _ _ _).comp
    ((setEntry (by decide) _ _ _).comp (setEntry (by decide) _ _ _)))

lemma mapUart : TablesOnly img img.mapUart :=
  (setEntry (by decide) _ _ _).comp ((setEntry (by decide) _ _ _).comp (setEntry (by decide) _ _ _))

lemma mapPages (k : ℕ) : TablesOnly img fun m => img.mapPages m k := by
  induction k with
  | zero => exact ⟨fun _ _ _ => rfl, fun _ _ _ h => h⟩
  | succ k ih => exact (mapAddress _ _).comp ih

end TablesOnly

def booted (c : Cpu) : Translation := fun m va => sv48 { c with mem := m } va

section Booted

variable {img : BootImage} {m m' : Memory} {c : Cpu}

def KeepsTables (img : BootImage) (c : Cpu) (m : Memory) : Prop :=
  ∀ x, img.tables ≤ x → x < img.tables + 7 * 4096 → m x = c.mem x

/-- What is written outside the tables could have been there before `_start`. -/
lemma started_of_keepsTables (h : Started img m c) (hm : KeepsTables img c m') :
    ∃ m₀, Started img m₀ { c with mem := m' } := by
  have hpages : TablesOnly img fun m => img.mapPages m img.pages := TablesOnly.mapPages _
  have hboth := TablesOnly.mapUart.comp hpages
  refine ⟨fun x => if img.tables ≤ x ∧ x < img.tables + 7 * 4096 then m x else m' x, ?_, h.satp⟩
  funext x
  by_cases hx : img.tables ≤ x ∧ x < img.tables + 7 * 4096
  · rw [hboth.congr m _ x (if_pos hx), ← h.mem]
    exact hm x hx.1 hx.2
  · rw [hboth.outside _ x (by omega), if_neg hx]

lemma booted_behind (h : Started img m c) (hT : img.tables % 4096 = 0) (hpages : img.pages ≤ 512)
    (hm : KeepsTables img c m') {a n : ℕ} (hok : Behind img ⟨a, n⟩) : booted c m' a = direct m' a := by
  obtain ⟨himage, hextra, haligned⟩ := hok
  dsimp only at himage hextra haligned
  obtain ⟨m₀, h'⟩ := started_of_keepsTables h hm
  have hstart := kernelStart_lt img
  have hend := kernelEnd_le img
  have hn : 0 < n := by
    by_contra hn
    rw [Nat.eq_zero_of_not_pos hn, Nat.mod_zero] at haligned
    simp only [haligned, virtualOffset] at himage
    omega
  obtain ⟨p, rfl⟩ : ∃ p, a = virtualOffset + p := ⟨a - virtualOffset, by omega⟩
  have hp : BootMapped img p := Or.inl ⟨by omega, by omega⟩
  have hphysical : physical (virtualOffset + p) = p := by
    rw [physical_eq]
    simp only [virtualOffset, extraPages] at hextra ⊢
    omega
  rw [direct, hphysical]
  exact (h'.mapsKernel hT ((pages_le_iff_size img).mp hpages)).translates p hp

lemma KeepsTables.store (hm : KeepsTables img c m') {a n v : ℕ} (hok : Behind img ⟨a, n⟩) :
    KeepsTables img c (Library.ByteMemory.store m' n (physical a) v) := by
  have hend := kernelEnd_le img
  have htables := img.tables_le
  have hphysical : img.kernelEnd ≤ physical a := by
    obtain ⟨himage, hextra, _⟩ := hok
    dsimp only at himage hextra
    rw [physical_eq]
    simp only [virtualOffset, extraPages] at himage hextra
    omega
  intro x hx hx'
  rw [store_outside (Or.inl (by rw [BootImage.kernelEnd] at hphysical; omega))]
  exact hm x hx hx'

end Booted

/-- From `_start` on, the translation finds all pages that are touched before `switch_to_new_page_table`. -/
theorem earlyInit_booted (img : BootImage) (hT : img.tables % 4096 = 0) (hpages : img.pages ≤ 512)
    (machineHandler supervisorHandler : Word) (fuel : ℕ) (c₀ c : Cpu)
    (hstart : start img machineHandler supervisorHandler fuel c₀ = some c) (limit : ℕ) (hlimit : 2 ≤ limit) :
    ∃ r, (earlyInit img.toImage limit).run (booted c) c.mem = some r ∧
      (earlyInit img.toImage limit).run direct c.mem = some r := by
  obtain ⟨hmem, hsatp⟩ := (start_spec img machineHandler supervisorHandler fuel).1 c hstart
  have hstays := earlyInit_stays hpages hlimit c.mem
  have hbooted : (earlyInit img.toImage limit).Stays (booted c) (Behind img) c.mem
      (Initialises img.toImage c.mem) := by
    refine hstays.transfer (I := KeepsTables img c) (fun _ _ _ => rfl) (fun m a n hm hok => ?_) ?_
    · exact booted_behind ⟨hmem, hsatp⟩ hT hpages hm hok
    · intro m a n p v hm hok hp
      obtain rfl := Option.some.inj hp
      exact hm.store hok
  obtain ⟨r, m', hrun, rfl, rfl⟩ := hbooted.run
  obtain ⟨r, m', hrun', rfl, rfl⟩ := hstays.run
  exact ⟨_, hrun, hrun'⟩

def Inside (img : BootImage) (e : Access) : Prop :=
  virtualOffset + kernelStart ≤ e.address ∧ e.address + e.length ≤ virtualOffset + (img.kernelEnd + 4096 * extraPages)

def flagByte (img : Image) (f : ℕ) : ℕ :=
  physical ((placed img).managedFramesAddressStart + getFrameNumber (placed img) f)

def Apart (img : BootImage) (frames : List ℕ) : Prop :=
  ∀ f ∈ frames, ∀ x, f ≤ x → x < f + 4096 →
    ¬ (kernelStart ≤ x ∧ x < img.kernelEnd) ∧ ∀ g ∈ frames, x ≠ flagByte img.toImage g

lemma apart_frames {img : BootImage} (hpages : img.pages ≤ 512) :
    Apart img [frame img.toImage 0, frame img.toImage 1] := by
  have hend := kernelEnd_le img
  have hn := (numFrames_bounds hpages).1
  have hroom : Room img.toImage := by
    have hsize := (pages_le_iff_size img).mp hpages
    have hmemory := img.memoryEnd
    rw [kernelStart, BootImage.kernelEnd] at hsize
    exact ⟨by omega, by omega, by omega⟩
  have hframe : ∀ f ∈ [frame img.toImage 0, frame img.toImage 1], ∃ i < 2, f = frame img.toImage i := by
    intro f hf
    rcases List.mem_pair.mp hf with rfl | rfl
    · exact ⟨0, by omega, rfl⟩
    · exact ⟨1, by omega, rfl⟩
  intro f hf x hx hx'
  obtain ⟨i, hi, rfl⟩ := hframe f hf
  rw [frame_eq hend] at hx hx'
  refine ⟨fun h => ?_, fun g hg => ?_⟩
  · have hlt := h.2
    rw [BootImage.kernelEnd] at hlt
    simp only [alignedStart] at hx
    omega
  · obtain ⟨j, hj, rfl⟩ := hframe g hg
    have hflag : flagByte img.toImage (frame img.toImage j) = alignedStart img.toImage + j := by
      rw [flagByte, hroom.getFrameNumber_frame (by omega)]
      exact physical_flag hend (by omega)
    rw [hflag]
    omega

/-- Whatever the end of the image, the flags and the two tables lie in the pages that `_start` maps behind it, as long
as these fit one table. -/
theorem earlyInit_inside (img : BootImage) (hpages : img.pages ≤ 512) (m : Memory) (limit : ℕ) (hlimit : 2 ≤ limit) :
    ∃ f₁ f₂ m', (earlyInit img.toImage limit).run direct m = some ((f₁, f₂), m') ∧
      (∀ e ∈ (earlyInit img.toImage limit).accesses direct m, Inside img e) ∧ Apart img [f₁, f₂] := by
  have hstays := earlyInit_stays hpages hlimit m
  obtain ⟨r, m', hrun, rfl, _⟩ := hstays.run
  refine ⟨_, _, m', hrun, fun e he => ?_, apart_frames hpages⟩
  have hbehind := hstays.accesses e he
  have hstart := kernelStart_lt img
  exact ⟨(by omega : _ ≤ virtualOffset + img.kernelEnd).trans hbehind.image, hbehind.extra⟩

def unalignedKernel : BootImage where
  physicalHeapStart := 0x8000F123
  physicalMemoryEnd := 0x100000000
  tables := 0x80007000
  kernelStart_le := by decide
  tables_le := by decide
  fits := by decide
  memoryEnd := rfl

theorem earlyInit_inside_unaligned : unalignedKernel.kernelEnd % 4096 ≠ 0 ∧ unalignedKernel.pages ≤ 512 ∧
    ∃ f₁ f₂ m', (earlyInit unalignedKernel.toImage 2).run direct (fun _ => 0xFF) = some ((f₁, f₂), m') ∧
      (∀ e ∈ (earlyInit unalignedKernel.toImage 2).accesses direct fun _ => 0xFF, Inside unalignedKernel e) ∧
      Apart unalignedKernel [f₁, f₂] :=
  ⟨by decide, by decide, earlyInit_inside unalignedKernel (by decide) _ 2 le_rfl⟩

end TetraOS.Memory.EarlyInit
