import TetraOS.Processes.Interference
import TetraOS.Processes.KernelHalf
import TetraOS.Processes.SharedPages

/-! Where `submit_new_process` puts the heap and the stack of a process. -/

namespace TetraOS.Processes

open Memory Library.ByteMemory Library.TableTree VirtualPage PhysicalAllocator

variable {α : Type}

structure ProgramHeader where
  type : ℕ
  vaddr : ℕ
  memsz : ℕ

namespace ProgramHeader

variable (h : ProgramHeader)

def stop : ℕ := h.vaddr + h.memsz
def firstPage : ℕ := h.vaddr - h.vaddr % pageSize

end ProgramHeader

def lastEnd (table : List ProgramHeader) (e : ℕ) : ℕ :=
  table.foldl (fun e h => if h.type = 1 then max e h.stop else e) e

structure WellPlaced (table : List ProgramHeader) (heap : ℕ) : Prop where
  aligned : heap % 4096 = 0
  first : 4096 ≤ heap
  above : ∀ h ∈ table, h.type = 1 → h.stop ≤ heap
  close : heap ≤ lastEnd table 0 + 4096
  apart : ∀ h ∈ table, h.type = 1 → h.firstPage ≠ heap
  paths : heap < 2 ^ 48 → ∀ h ∈ table, h.type = 1 → path h.firstPage ≠ path heap

section Table

variable {table : List ProgramHeader} {h : ProgramHeader} {e : ℕ}

lemma lastEnd_cons : lastEnd (h :: table) e = lastEnd table (if h.type = 1 then max e h.stop else e) := rfl

lemma le_lastEnd : e ≤ lastEnd table e ∧ ∀ h ∈ table, h.type = 1 → h.stop ≤ lastEnd table e := by
  induction table generalizing e with
  | nil => exact ⟨le_rfl, fun h hh => absurd hh List.not_mem_nil⟩
  | cons k table ih =>
    rw [lastEnd_cons]
    obtain ⟨hle, hall⟩ := ih (e := if k.type = 1 then max e k.stop else e)
    have hfirst : e ≤ (if k.type = 1 then max e k.stop else e) ∧
        (k.type = 1 → k.stop ≤ if k.type = 1 then max e k.stop else e) := by
      split
      · exact ⟨le_max_left _ _, fun _ => le_max_right _ _⟩
      · rename_i htype
        exact ⟨le_rfl, fun hh => absurd hh htype⟩
    refine ⟨hfirst.1.trans hle, fun h hh htype => ?_⟩
    rcases List.mem_cons.mp hh with rfl | hh
    · exact (hfirst.2 htype).trans hle
    · exact hall h hh htype

lemma lastEnd_le {b : ℕ} (he : e ≤ b) (hall : ∀ h ∈ table, h.type = 1 → h.stop ≤ b) : lastEnd table e ≤ b := by
  induction table generalizing e with
  | nil => exact he
  | cons k table ih =>
    rw [lastEnd_cons]
    refine ih ?_ fun h hh => hall h (List.mem_cons_of_mem _ hh)
    split
    · rename_i htype
      exact max_le he (hall k List.mem_cons_self htype)
    · exact he

lemma heapAddress_eq (he : e + 4096 < 2 ^ 64) : heapAddress e = 4096 * (e / 4096 + 1) := by
  rw [heapAddress, pageSize]
  omega

lemma wellPlaced (hfit : ∀ h ∈ table, h.type = 1 → h.stop + 4096 < 2 ^ 64) :
    WellPlaced table (heapAddress (lastEnd table 0)) := by
  have hlast : lastEnd table 0 ≤ 2 ^ 64 - 4097 := lastEnd_le (Nat.zero_le _) fun h hh htype => by
    have := hfit h hh htype
    omega
  have hstop : ∀ h ∈ table, h.type = 1 → h.stop ≤ lastEnd table 0 := le_lastEnd.2
  have hpage : ∀ h ∈ table, h.type = 1 → h.firstPage / 4096 < lastEnd table 0 / 4096 + 1 := by
    intro h hh htype
    have := hstop h hh htype
    rw [ProgramHeader.stop] at this
    rw [ProgramHeader.firstPage]
    omega
  rw [heapAddress_eq (by omega)]
  refine ⟨by omega, by omega, fun h hh htype => ?_, by omega, fun h hh htype => ?_, fun hlow h hh htype => ?_⟩
  · have := hstop h hh htype
    omega
  · have := hpage h hh htype
    omega
  · have := hpage h hh htype
    rw [Ne, path_eq_iff, pageOf, pageOf]
    omega

end Table

lemma submit_heapStart {k : FrameAlloc α} {fs : FileSystem α} {fuel contents headers n dataEnd : ℕ}
    {scheduler scheduler' : Scheduler} {s s₁ s₂ s' : State α}
    (hread : readProgram k fs fuel s = some (contents, headers, n, s₁))
    (hloop : loadSegments k contents headers n 0 0 s₁ = some (dataEnd, s₂))
    (hk : submitNewProcess k fs fuel scheduler s = some (scheduler', s')) :
    ∃ process, scheduler'.processes = scheduler.processes ++ [process] ∧ process.heapStart = heapAddress dataEnd := by
  obtain ⟨_, _, _, _, e, t₂, _, _, hread', hloop', _, _, _, _, _, rfl⟩ := submitNewProcess_cases hk
  rw [hread] at hread'
  simp only [Option.some.injEq, Prod.mk.injEq] at hread'
  obtain ⟨rfl, rfl, rfl, rfl⟩ := hread'
  have hend : dataEnd = e := (Prod.mk.inj (Option.some.inj (hloop.symm.trans hloop'))).1
  exact ⟨_, rfl, by rw [hend]⟩

section File

variable {S : FrameSource α} {s : State α} {file : ℕ → UInt8} {size contents : ℕ}

def headersFrom (file : ℕ → UInt8) : (n i : ℕ) → List ProgramHeader
  | 0, _ => []
  | n + 1, i => ⟨headerType file i, (segmentAt file i).vaddr, (segmentAt file i).memsz⟩ :: headersFrom file n (i + 1)

/-- Neither the page that is mapped for the segment nor a byte that is copied lies in the direct map or in the range of
the kernel heap. -/
def OffKernel (g : Segment) : Prop := ∀ x, x = g.vaddr - g.vaddr % pageSize ∨ g.vaddr ≤ x ∧ x < g.vaddr + g.filesz →
  Outside x ∧ ¬ HeapPath (path x)

/-- What is assumed of `get_file_size` and `read_file`: where they return, the block holds the file, and they have
touched the kernel half only by allocating from the heap and by filling the block. -/
structure Supplies (S : FrameSource α) (fs : FileSystem α) (file : ℕ → UInt8) (size : ℕ) : Prop
    extends Undisturbing S fs where
  size_eq : ∀ s n s', Kernel S s → fs.getFileSize s = some (n, s') → n = size
  bytes : ∀ s data res s', Kernel S s → heapStart ≤ data → data + size ≤ s.freeList →
    fs.readFile s size data = some (res, s') → s.freeList ≤ s'.freeList ∧ ∀ i < size, view s' (data + i) = file i

structure Kept (s s' : State α) : Prop where
  freeList : s'.freeList = s.freeList
  view : ∀ x, heapStart ≤ x → x < s.freeList → view s' x = view s x

lemma Kept.refl (s : State α) : Kept s s := ⟨rfl, fun _ _ _ => rfl⟩

lemma Kept.trans {s s' s'' : State α} (h : Kept s s') (h' : Kept s' s'') : Kept s s'' :=
  ⟨h'.freeList.trans h.freeList, fun x hx hx' => (h'.view x hx (h.freeList ▸ hx')).trans (h.view x hx hx')⟩

lemma Kept.holds {s' : State α} (h : Kept s s') (hh : Holds s file size contents) : Holds s' file size contents := by
  have hstart := hh.start
  have hstop := hh.stop
  exact ⟨hstart, h.freeList ▸ hstop, fun i hi => (h.view _ (by omega) (by omega)).trans (hh.bytes i hi)⟩

lemma mapFrame_kept {s' : State α} {v : ℕ} (hs : Kernel S s) (hv : Outside v) (hnot : ¬ HeapPath (path v))
    (hm : mapFrame S.kallocFrame v s = some s') : Kernel S s' ∧ Kept s s' := by
  obtain ⟨h', n, hnew⟩ := mapFrame_mapsNew hs hv hnot hm
  refine ⟨h', hnew.freeList, fun x hx hx' => ?_⟩
  obtain ⟨hin, _⟩ := inHeap_of_freeList hs hx hx'
  exact hnew.view_other x (hs.usable hin).path_owned fun hp => hnot ⟨x, hin, hp.symm⟩

lemma mapPages_kept {s' : State α} {v n : ℕ} (hs : Kernel S s) (hv : Outside v) (hnot : ¬ HeapPath (path v))
    (hm : mapPages S.kallocFrame v n s = some s') : Kernel S s' ∧ Kept s s' := by
  induction n generalizing s with
  | zero =>
    obtain rfl := Option.some.inj hm
    exact ⟨hs, Kept.refl s⟩
  | succ n ih =>
    obtain ⟨s₁, hm₁, hm⟩ := Option.bind_eq_some_iff.mp hm
    obtain ⟨h₁, hk₁⟩ := mapFrame_kept hs hv hnot hm₁
    obtain ⟨h', hk'⟩ := ih h₁ hm
    exact ⟨h', hk₁.trans hk'⟩

lemma memcpy_kept {s' : State α} {dest src n : ℕ} (hs : Kernel S s)
    (hoff : ∀ x, dest ≤ x → x < dest + n → Outside x ∧ ¬ HeapPath (path x))
    (hc : memcpy s dest src n = some s') : Kernel S s' ∧ Kept s s' := by
  induction n generalizing s' with
  | zero =>
    obtain rfl := Option.some.inj hc
    exact ⟨hs, Kept.refl s⟩
  | succ n ih =>
    obtain ⟨s₁, hc₁, hc⟩ := Option.bind_eq_some_iff.mp hc
    obtain ⟨b, _, hc⟩ := Option.bind_eq_some_iff.mp hc
    obtain ⟨h₁, hk₁⟩ := ih (fun x hx hx' => hoff x hx (by omega)) hc₁
    obtain ⟨hout, hnot⟩ := hoff (dest + n) (by omega) (by omega)
    have hnin : ¬ InHeap (dest + n) := fun hin => hnot ⟨_, hin, rfl⟩
    have hst := h₁.start
    have hsp := h₁.space
    have hend := h₁.end_le
    rw [InHeap] at hnin
    obtain ⟨h', hsame, hview⟩ := h₁.storeByte hout trivial (by omega) hc
    refine ⟨h', hk₁.trans ⟨hsame.freeList, fun x hx hx' => ?_⟩⟩
    obtain ⟨hin, _⟩ := inHeap_of_freeList h₁ hx hx'
    rw [hview x hin.outside hin.canonical trivial, if_neg]
    rintro rfl
    exact hnin hin

lemma loadSegment_kept {s' : State α} {i e e' : ℕ} (hs : Kernel S s) (hh : Holds s file size contents)
    (hi : headerOffset file i + sizeofPhdr ≤ size) (hoff : headerType file i = 1 → OffKernel (segmentAt file i))
    (hfit : headerType file i = 1 → (segmentAt file i).vaddr + (segmentAt file i).memsz < 2 ^ 64)
    (hk : loadSegment S.kallocFrame contents (contents + headerOffset file i) e s = some (e', s')) :
    Kernel S s' ∧ Holds s' file size contents ∧
      e' = if headerType file i = 1 then max e ((segmentAt file i).vaddr + (segmentAt file i).memsz) else e := by
  obtain ⟨htype, hmemsz, hvaddr, _, _⟩ := hh.fields hs hi
  rw [loadSegment, htype, Option.bind_eq_bind, Option.bind_some] at hk
  by_cases hone : headerType file i = 1
  · rw [if_neg (not_not.mpr hone), hmemsz, Option.bind_some, hvaddr, Option.bind_some] at hk
    obtain ⟨s₁, hm, hk⟩ := Option.bind_eq_some_iff.mp hk
    obtain ⟨hout, hnot⟩ := hoff hone _ (Or.inl rfl)
    obtain ⟨h₁, hk₁⟩ := mapPages_kept hs hout hnot hm
    have hh₁ := hk₁.holds hh
    obtain ⟨_, _, _, hoffset, hfilesz⟩ := hh₁.fields h₁ hi
    rw [hoffset, Option.bind_some, hfilesz, Option.bind_some, Nat.sub_add_cancel (Nat.mod_le _ _)] at hk
    obtain ⟨s₂, hc, hk⟩ := Option.bind_eq_some_iff.mp hk
    obtain ⟨h₂, hk₂⟩ := memcpy_kept h₁ (fun x hx hx' => hoff hone x (Or.inr ⟨hx, hx'⟩)) hc
    have hh₂ := hk₂.holds hh₁
    obtain ⟨_, hmemsz₂, hvaddr₂, _, _⟩ := hh₂.fields h₂ hi
    rw [hvaddr₂, Option.bind_some, hmemsz₂, Option.bind_some, Nat.mod_eq_of_lt (hfit hone)] at hk
    obtain ⟨rfl, rfl⟩ := Prod.mk.inj (Option.some.inj hk)
    refine ⟨h₂, hh₂, ?_⟩
    rw [if_pos hone, Nat.max_def]
    split <;> split <;> omega
  · rw [if_pos hone] at hk
    obtain ⟨rfl, rfl⟩ := Prod.mk.inj (Option.some.inj hk)
    exact ⟨hs, hh, (if_neg hone).symm⟩

lemma loadSegments_dataEnd {s' : State α} {n i e e' : ℕ} (hs : Kernel S s) (hh : Holds s file size contents)
    (hi : headerOffset file (i + n) ≤ size) (hoff : ∀ g ∈ segmentsFrom file n i, OffKernel g)
    (hfit : ∀ h ∈ headersFrom file n i, h.type = 1 → h.stop < 2 ^ 64)
    (hk : loadSegments S.kallocFrame contents (contents + phoff file) n i e s = some (e', s')) :
    e' = lastEnd (headersFrom file n i) e := by
  induction n generalizing i e s with
  | zero => exact (Prod.mk.inj (Option.some.inj hk)).1.symm
  | succ n ih =>
    obtain ⟨hi', hnext, haddr⟩ := hh.header_address hs hi
    obtain ⟨⟨e₁, s₁⟩, hround, hrest⟩ := Option.bind_eq_some_iff.mp hk
    rw [haddr] at hround
    have hoff' : (headerType file i = 1 → OffKernel (segmentAt file i)) ∧
        ∀ g ∈ segmentsFrom file n (i + 1), OffKernel g := by
      rw [segmentsFrom] at hoff
      split_ifs at hoff with hone
      · exact ⟨fun _ => hoff _ List.mem_cons_self, fun g hg => hoff g (List.mem_cons_of_mem _ hg)⟩
      · exact ⟨fun hh' => absurd hh' hone, hoff⟩
    have hstop : headerType file i = 1 → (segmentAt file i).vaddr + (segmentAt file i).memsz < 2 ^ 64 :=
      hfit ⟨headerType file i, (segmentAt file i).vaddr, (segmentAt file i).memsz⟩ List.mem_cons_self
    obtain ⟨h₁, hh₁, rfl⟩ := loadSegment_kept hs hh hi' hoff'.1 hstop hround
    rw [ih h₁ hh₁ hnext hoff'.2 (fun h hh' => hfit h (List.mem_cons_of_mem _ hh')) hrest]
    rfl

lemma readProgram_holds {fs : FileSystem α} {s₁ : State α} {fuel headers n : ℕ} (hs : Kernel S s)
    (hfs : Supplies S fs file size) (hheader : 64 ≤ size) (hphoff : phoff file ≤ size)
    (hread : readProgram S.kallocFrame fs fuel s = some (contents, headers, n, s₁)) :
    Kernel S s₁ ∧ Holds s₁ file size contents ∧ headers = contents + phoff file ∧ n = phnum file := by
  obtain ⟨f, t₁, n', t₂, t₃, res, offset, hk₁, hk₂, hk₃, hk₄, hoffset, hnum, hheaders⟩ := readProgram_cases hread
  obtain ⟨h₁, _⟩ := kallocFrame_grown hs hk₁
  obtain rfl := hfs.size_eq t₁ n' t₂ h₁ hk₂
  obtain ⟨hsize, h₂, _⟩ := hfs.getFileSize t₁ n' t₂ h₁ hk₂
  obtain ⟨h₃, rfl, hfl, _⟩ := h₂.kalloc (by omega) hk₃
  have hst := h₂.start
  obtain ⟨h₄, _⟩ := hfs.readFile t₃ n' _ res s₁ h₃ (by omega) hfl.ge hk₄
  obtain ⟨hmono, hbytes⟩ := hfs.bytes t₃ _ res s₁ h₃ (by omega) hfl.ge hk₄
  have hh₄ : Holds s₁ file n' (t₂.freeList + 16) := ⟨by omega, hfl.ge.trans hmono, hbytes⟩
  have hlt := hh₄.lt h₄
  have hoffset' : ePhoff s₁ (t₂.freeList + 16) = some (phoff file) := hh₄.loadBytes h₄ (by omega)
  have hnum' : ePhnum s₁ (t₂.freeList + 16) = some (phnum file) := hh₄.loadBytes h₄ (by omega)
  have hoffset_eq : offset = phoff file := Option.some.inj (hoffset.symm.trans hoffset')
  have hnum_eq : n = phnum file := Option.some.inj (hnum.symm.trans hnum')
  rw [hoffset_eq, Nat.mod_eq_of_lt (by omega)] at hheaders
  exact ⟨h₄, hh₄, hheaders, hnum_eq⟩

lemma loop_parts {fs : FileSystem α} {cost fuel : ℕ} (hs : Kernel S s) (hr : Reads S fs file size cost)
    (hx : LowerElf file size) (hfuel : size / 4096 + 2 < fuel)
    (hl : framesNeeded file size cost ≤ S.left s.mem s.frames) :
    ∃ contents s₁, readProgram S.kallocFrame fs fuel s = some (contents, contents + phoff file, phnum file, s₁) ∧
      (LoadableAll file (segments file) (loadByte s₁) → ∃ s₂, loadSegments S.kallocFrame contents
        (contents + phoff file) (phnum file) 0 0 s₁ = some (dataEnd (segments file) 0, s₂) ∧ Kernel S s₂) ∧
      (¬ LoadableAll file (segments file) (loadByte s₁) →
        loadSegments S.kallocFrame contents (contents + phoff file) (phnum file) 0 0 s₁ = none) := by
  have htable := hx.table
  obtain ⟨contents, s₁, hread, h₁, hh₁, hl₁⟩ := readProgram_eq hr hs hx.header
    (by rw [headerOffset] at htable; omega) hfuel hl
  have hn : headerOffset file (0 + phnum file) ≤ size := by rw [Nat.zero_add]; exact htable
  have hl₁' : segmentsFrames (segmentsFrom file (phnum file) 0) ≤ S.left s₁.mem s₁.frames := by
    rw [← segments]
    omega
  obtain ⟨hload, hfault⟩ := loadSegments_effect (e := 0) h₁ hh₁ hn hx.each hl₁'
  refine ⟨contents, s₁, hread, fun hall => ?_, hfault⟩
  obtain ⟨s₂, hs₂, he₂⟩ := hload hall
  exact ⟨s₂, hs₂, he₂.kernel⟩

end File

section Stack

variable {S : FrameSource α} {s s' : State α} {file : ℕ → UInt8} {size : ℕ}

def OfProgram (file : ℕ → UInt8) (heap x : ℕ) : Prop :=
  (∃ g ∈ segments file, g.vaddr ≤ x ∧ x < g.vaddr + g.memsz) ∨ x / 4096 = heap / 4096

def StackApart (k : FrameAlloc α) (fs : FileSystem α) (fuel : ℕ) (file : ℕ → UInt8) (s : State α) : Prop :=
  ∀ contents headers n s₁ dataEnd s₂ s₃ s₄, readProgram k fs fuel s = some (contents, headers, n, s₁) →
    loadSegments k contents headers n 0 0 s₁ = some (dataEnd, s₂) → mapFrame k (heapAddress dataEnd) s₂ = some s₃ →
    mapFrame k stackPage s₃ = some s₄ → ∀ x, OfProgram file (heapAddress dataEnd) x →
      x / 4096 ≠ stackPage / 4096 ∧ translate s₄ x = translate s₃ x

/-- No segment has a byte in the page of the stack, and the last one does not end in the page before it. -/
def StackFree (file : ℕ → UInt8) : Prop :=
  (∀ g ∈ segments file, ∀ x, g.vaddr ≤ x → x < g.vaddr + g.memsz → ¬ (0x100000 ≤ x ∧ x < 0x101000)) ∧
    ¬ (0xFF000 ≤ dataEnd (segments file) 0 ∧ dataEnd (segments file) 0 < 0x100000)

lemma mapFrame_translate (hs : Kernel S s) {v : ℕ} (hv : v < 2 ^ 47) (hm : mapFrame S.kallocFrame v s = some s') :
    Kernel S s' ∧ ∀ x < 2 ^ 47, x / 4096 ≠ v / 4096 → translate s' x = translate s x := by
  obtain ⟨hs', n, hnew⟩ := mapFrame_mapsNew hs (outside_of_lower hv) (not_heapPath_of_lower hv) hm
  refine ⟨hs', fun x hx hne => ?_⟩
  have hpath : path x ≠ path v := fun hh => hne ((path_eq_iff_of_lower hx hv).mp hh)
  rw [translate_of_lower hs' hx, translate_of_lower hs hx, hnew.satp,
    hnew.other _ (inside_path (outside_of_lower hx)) (not_prefix_path hpath)]

lemma LowerElf.heapAddress (hx : LowerElf file size) :
    heapAddress (dataEnd (segments file) 0) = 4096 * heapPage (segments file) := by
  have hheap := hx.heap
  rw [heapPage] at hheap ⊢
  exact heapAddress_eq (by omega)

lemma LowerElf.lower (hx : LowerElf file size) {x : ℕ} (h : OfProgram file (4096 * heapPage (segments file)) x) :
    x < 2 ^ 47 := by
  have hheap := hx.heap
  rcases h with ⟨g, hg, _, hlt⟩ | hpage
  · have := (hx.each g hg).stop
    omega
  · omega

lemma stackFree_iff : StackFree file ↔
    ∀ x, OfProgram file (4096 * heapPage (segments file)) x → x / 4096 ≠ stackPage / 4096 := by
  rw [StackFree, stackPage, heapPage]
  constructor
  · rintro ⟨hsegs, hend⟩ x (⟨g, hg, hle, hlt⟩ | hpage)
    · have := hsegs g hg x hle hlt
      omega
    · omega
  · intro h
    refine ⟨fun g hg x hle hlt hin => ?_, fun hend => ?_⟩
    · have := h x (Or.inl ⟨g, hg, hle, hlt⟩)
      omega
    · have := h 0x100000 (Or.inr (by omega))
      omega

lemma stackApart_iff {fs : FileSystem α} {cost fuel : ℕ} (hs : Kernel S s) (hr : Reads S fs file size cost)
    (hx : LowerElf file size) (hfuel : size / 4096 + 2 < fuel)
    (hl : framesNeeded file size cost ≤ S.left s.mem s.frames) {scheduler scheduler' : Scheduler}
    (hcall : submitNewProcess S.kallocFrame fs fuel scheduler s = some (scheduler', s')) :
    StackApart S.kallocFrame fs fuel file s ↔ StackFree file := by
  obtain ⟨contents, s₁, hread, hload, hfault⟩ := loop_parts hs hr hx hfuel hl
  have hheap := hx.heap
  have hchain : ∀ c hd n t₁ e t₂, readProgram S.kallocFrame fs fuel s = some (c, hd, n, t₁) →
      loadSegments S.kallocFrame c hd n 0 0 t₁ = some (e, t₂) → e = dataEnd (segments file) 0 ∧ Kernel S t₂ := by
    intro c hd n t₁ e t₂ hread' hloop
    rw [hread] at hread'
    simp only [Option.some.injEq, Prod.mk.injEq] at hread'
    obtain ⟨rfl, rfl, rfl, rfl⟩ := hread'
    by_cases hall : LoadableAll file (segments file) (loadByte s₁)
    · obtain ⟨s₂, hs₂, h₂⟩ := hload hall
      obtain ⟨rfl, rfl⟩ := Prod.mk.inj (Option.some.inj (hloop.symm.trans hs₂))
      exact ⟨rfl, h₂⟩
    · cases hloop.symm.trans (hfault hall)
  rw [stackFree_iff]
  constructor
  · intro h x hprogram
    obtain ⟨c, hd, n, t₁, e, t₂, t₃, t₄, hread', hloop, hmap, hstack, _⟩ := submitNewProcess_cases hcall
    obtain ⟨rfl, _⟩ := hchain c hd n t₁ e t₂ hread' hloop
    exact (h c hd n t₁ _ t₂ t₃ t₄ hread' hloop hmap hstack x (by rw [hx.heapAddress]; exact hprogram)).1
  · intro h c hd n t₁ e t₂ t₃ t₄ hread' hloop hmap hstack x hprogram
    obtain ⟨rfl, h₂⟩ := hchain c hd n t₁ e t₂ hread' hloop
    rw [hx.heapAddress] at hmap hprogram
    obtain ⟨h₃, _⟩ := mapFrame_translate h₂ hheap hmap
    exact ⟨h x hprogram, (mapFrame_translate h₃ stackPage_lower hstack).2 x (hx.lower hprogram) (h x hprogram)⟩

end Stack

/-- In every state that the kernel can reach, and for every call that returns: the stack takes no page from the
program if and only if the headers of the file leave its page free. -/
theorem stackApart_iff_stackFree (img : Image) (m : Memory) (hready : Ready img m) (s : State Frames)
    (blocks : List Block) (hrun : KernelRun img m s blocks) (fs : FileSystem Frames) (file : ℕ → UInt8) (size cost : ℕ)
    (hreads : Reads (source img hready.room) fs file size cost) (hx : LowerElf file size) (fuel : ℕ)
    (hfuel : size / 4096 + 2 < fuel) (hframes : framesNeeded file size cost ≤ framesLeft img s.mem)
    (scheduler scheduler' : Scheduler) (s' : State Frames)
    (hcall : submitNewProcess (kallocFrame (reserved img)) fs fuel scheduler s = some (scheduler', s')) :
    StackApart (kallocFrame (reserved img)) fs fuel file s ↔ StackFree file :=
  stackApart_iff (KernelInv.run hready hrun).kernel hreads hx hfuel hframes hcall

section Examples

lemma lowerElf_of_segment {file : ℕ → UInt8} {size : ℕ} {g : Segment} (hsegs : segments file = [g])
    (hheader : 64 ≤ size) (htable : headerOffset file (phnum file) ≤ size) (hg : Lower size g)
    (hend : g.vaddr + g.memsz + 4096 < 2 ^ 47) : LowerElf file size := by
  refine ⟨hheader, htable, fun k hk => ?_, ?_⟩
  · rw [hsegs, List.mem_singleton] at hk
    rw [hk]
    exact hg
  · rw [hsegs, heapPage, dataEnd, List.foldl_cons, List.foldl_nil]
    omega

lemma submit_of_segment {file : ℕ → UInt8} {size : ℕ} {g : Segment} (hx : LowerElf file size)
    (hsegs : segments file = [g]) (hsingle : g.vaddr % 4096 + g.memsz ≤ 4096) {s : State Frames}
    (hs : Kernel (source megabyteImage megabyteImage_ready.room) s) (hsize : size < 4096)
    (hleft : framesLeft megabyteImage s.mem = 32763) :
    framesNeeded file size 0 ≤ (source megabyteImage megabyteImage_ready.room).left s.mem s.frames ∧
    ∃ scheduler' s', submitNewProcess (source megabyteImage megabyteImage_ready.room).kallocFrame (oneFile file size) 3
      ⟨0, []⟩ s = some (scheduler', s') := by
  have hframes : framesNeeded file size 0 ≤ (source megabyteImage megabyteImage_ready.room).left s.mem s.frames := by
    rw [source_left, hleft, framesNeeded, hsegs, segmentsFrames, List.map_singleton, List.sum_singleton, segmentFrames]
    omega
  have hg := (hx.each g (by rw [hsegs]; exact List.mem_singleton_self g)).filesz
  have hall : LoadableAll file (segments file) (loadByte s) := by
    rw [hsegs]
    exact ⟨loadable_of_single hsingle hg, trivial⟩
  have hfuel : size / 4096 + 2 < 3 := by omega
  obtain ⟨scheduler', _, _, s', hcall, _⟩ :=
    (submit_parts hs (oneFile_reads _ file (by omega)) hx hfuel hframes ⟨0, []⟩).1 hall
  exact ⟨hframes, scheduler', s', hcall⟩

lemma offKernel_of_lower {size : ℕ} {g : Segment} (hg : Lower size g) : OffKernel g := by
  intro x hx
  have hstart := hg.start
  have hstop := hg.stop
  have hfilesz := hg.filesz
  have hlow : x < 2 ^ 47 := by omega
  exact ⟨outside_of_lower hlow, not_heapPath_of_lower hlow⟩

lemma oneFile_supplies {α : Type} (S : FrameSource α) (file : ℕ → UInt8) {size : ℕ} (hsize : size < 2 ^ 32) :
    Supplies S (oneFile file size) file size := by
  refine ⟨oneFile_undisturbing S file hsize, fun s n s' _ hget => (Prod.mk.inj (Option.some.inj hget)).1.symm, ?_⟩
  intro s data res s' hs hlo hhi hread
  obtain ⟨_, _, hread', _, _, hmono, _, hbytes⟩ :=
    (oneFile_reads S file hsize).readFile s data hs (Nat.zero_le _) hlo hhi
  obtain ⟨_, rfl⟩ := Prod.mk.inj (Option.some.inj (hread.symm.trans hread'))
  exact ⟨hmono, hbytes⟩

section Zeroed

variable {α : Type} {S : FrameSource α} {s : State α} {v : ℕ}

def ZeroPage (s : State α) (v : ℕ) : Prop := ∀ x, path x = path v → Mapped s x ∧ view s x = 0

lemma mapFrame_zeroPage (h : Tree S Everywhere (EntryOk Everywhere) s) (hv : Outside v)
    (hl : 4 ≤ S.left s.mem s.frames) : ∃ s', mapFrame S.kallocFrame v s = some s' ∧
      Tree S Everywhere (EntryOk Everywhere) s' ∧ ZeroPage s' v ∧
      S.left s.mem s.frames ≤ S.left s'.mem s'.frames + 4 := by
  have hmiss := missingTables_le s.mem s.satp v
  obtain ⟨f, s₁, s', hk, hm⟩ := mapsNew_isSome h hv 0x1F (by omega)
  obtain ⟨n, _, h', hnew⟩ := mapsNew h hv (by decide) (fun _ => by decide) hk hm
  have hleft := hnew.left
  refine ⟨s', by rw [mapFrame, hk]; exact hm, h', fun x hx => ⟨?_, hnew.view_self trivial x hx⟩, by omega⟩
  rw [Mapped, hx, hnew.satp, hnew.self]
  rfl

lemma mapPages_zeroPage (h : Tree S Everywhere (EntryOk Everywhere) s) (hv : Outside v) (n : ℕ)
    (hl : 4 * (n + 1) ≤ S.left s.mem s.frames) : ∃ s', mapPages S.kallocFrame v (n + 1) s = some s' ∧
      Tree S Everywhere (EntryOk Everywhere) s' ∧ ZeroPage s' v := by
  induction n generalizing s with
  | zero =>
    obtain ⟨s', hm, h', hzero, _⟩ := mapFrame_zeroPage h hv (by omega)
    exact ⟨s', by rw [mapPages, hm]; rfl, h', hzero⟩
  | succ n ih =>
    obtain ⟨s₁, hm, h₁, _, hleft⟩ := mapFrame_zeroPage h hv (by omega)
    obtain ⟨s', hs', h', hzero⟩ := ih h₁ (by omega)
    exact ⟨s', by rw [mapPages, hm]; exact hs', h', hzero⟩

lemma ZeroPage.loadBytes (hz : ZeroPage s heapStart) (h : Tree S Everywhere (EntryOk Everywhere) s) {n a : ℕ}
    (ha : heapStart ≤ a) (hn : a + n ≤ heapStart + 4096) : loadBytes s n a = some 0 := by
  have hin : ∀ x, a ≤ x → x < a + n → InHeap x ∧ path x = path heapStart := fun x hx hx' =>
    inHeap_first (by omega) (by omega)
  rw [loadBytes_eq h (fun x hx hx' => ⟨(hin x hx hx').1.outside, (hin x hx hx').1.canonical, trivial, trivial⟩)
    (fun x hx hx' => (hz x (hin x hx hx').2).1)]
  have hzero : Zero (view s) a n := fun x hx hx' => (hz x (hin x hx hx').2).2
  rw [hzero.load le_rfl le_rfl]

lemma readProgram_contents {file : ℕ → UInt8} {size fuel contents headers n : ℕ} {s₁ : State α} (hs : Kernel S s)
    (hsize : size < 2 ^ 32)
    (hread : readProgram S.kallocFrame (oneFile file size) fuel s = some (contents, headers, n, s₁)) :
    contents = s.freeList + 16 := by
  obtain ⟨f, t₁, size', t₂, t₃, _, _, hk₁, hk₂, hk₃, _⟩ := readProgram_cases hread
  obtain ⟨rfl, rfl⟩ := Prod.mk.inj (Option.some.inj hk₂)
  obtain ⟨h₁, _, hfreeList, _⟩ := hs.kallocFrame hk₁
  obtain ⟨_, hp, _⟩ := h₁.kalloc (by omega) hk₃
  rw [hp, hfreeList]

end Zeroed

theorem stackApart_program : ∃ s, KernelRun megabyteImage (fun _ => 0) s [] ∧
    StackApart (kallocFrame (reserved megabyteImage)) (oneFile (program 4096) 128) 3 (program 4096) s := by
  obtain ⟨s, hrun, hleft, hbooted⟩ := boot_kernel
  have hsegs : segments (program 4096) = [programSegment 4096] := by rfl
  have hx : LowerElf (program 4096) 128 := (program_executable hsegs (by decide) (by decide) (by decide)).lowerElf
  obtain ⟨hframes, scheduler', s', hcall⟩ := submit_of_segment hx hsegs (by decide) hbooted.heap (by decide) hleft
  rw [source_left] at hframes
  refine ⟨s, hrun, (stackApart_iff_stackFree _ _ megabyteImage_ready s [] hrun _ _ 128 0
    (oneFile_reads _ _ (by decide)) hx 3 (by decide) hframes _ scheduler' s' hcall).mpr ⟨?_, ?_⟩⟩
  · intro g hg x hle hlt
    rw [hsegs, List.mem_singleton] at hg
    rw [hg, programSegment] at hle hlt
    dsimp only at hle hlt
    omega
  · rw [hsegs]
    decide

/-- A program whose segment ends in the page before that of the stack, where its heap is put. -/
def highProgram : ℕ → UInt8 := store (program 8) 8 80 0xFF000

theorem not_stackApart_highProgram : ∃ s, KernelRun megabyteImage (fun _ => 0) s [] ∧ LowerElf highProgram 128 ∧
    heapAddress (dataEnd (segments highProgram) 0) = stackPage ∧
    ¬ StackApart (kallocFrame (reserved megabyteImage)) (oneFile highProgram 128) 3 highProgram s := by
  obtain ⟨s, hrun, hleft, hbooted⟩ := boot_kernel
  have hsegs : segments highProgram = [⟨120, 0xFF000, 8, 8⟩] := by rfl
  have hx : LowerElf highProgram 128 := lowerElf_of_segment hsegs (by decide) (by decide)
    ⟨by decide, by decide, by decide, by decide⟩ (by decide)
  obtain ⟨hframes, scheduler', s', hcall⟩ := submit_of_segment hx hsegs (by decide) hbooted.heap (by decide) hleft
  refine ⟨s, hrun, hx, by rw [hsegs]; rfl, fun h => ?_⟩
  have hfree := (stackApart_iff hbooted.heap (oneFile_reads _ _ (by decide)) hx (by decide) hframes hcall).mp h
  rw [StackFree, hsegs] at hfree
  exact hfree.2 (by decide)

end Examples

end TetraOS.Processes
