import TetraOS.Memory.KernelHeap

/-! The state in which `os_start` has initialised the three allocators, one after the other. -/

namespace TetraOS.Memory

open Library.ByteMemory Library.TableTree VirtualPage FreeSpace PhysicalAllocator

section Init

variable {α : Type} {S : FrameSource α} {L K : List (Fin 512) → Prop} {s s' : State α} {img : Image}

lemma virtualHeapStart_eq (himg : img.physicalMemoryEnd = 2 ^ 32) : img.virtualHeapStart = heapStart := by
  rw [Image.virtualHeapStart, himg, heapStart_eq]
  rfl

lemma inHeap_start : InHeap heapStart := ⟨le_rfl, by rw [heapStart_eq, heapLimit_eq]; norm_num⟩

lemma inHeap_first {x : ℕ} (hx : heapStart ≤ x) (hx' : x < heapStart + 4096) :
    InHeap x ∧ path x = path heapStart := by
  have hin : InHeap x := by
    refine ⟨hx, ?_⟩
    rw [heapStart_eq] at hx'
    rw [heapLimit_eq]
    omega
  refine ⟨hin, ?_⟩
  rw [hin.path_eq_iff inHeap_start]
  rw [heapStart_eq] at hx hx' ⊢
  omega

lemma virtualAllocatorInit_cases {k : FrameAlloc α} (himg : img.physicalMemoryEnd = 2 ^ 32)
    (hk : virtualAllocatorInit k img s = some s') :
    ∃ f s₁ s₂ s₃ s₄, s.kallocFrame k = some (f, s₁) ∧ mapPage k s₁ heapStart f 0xF = some s₂ ∧
      setSize s₂ heapStart 4096 = some s₃ ∧ setLast s₃ heapStart = some s₄ ∧
      s' = { s₄ with freeList := heapStart, virtualAllocEnd := heapStart + 4096 } := by
  have he : (heapStart + 4096) % 2 ^ 64 = heapStart + 4096 := by
    rw [heapStart_eq]
    norm_num
  simp only [virtualAllocatorInit, virtualHeapStart_eq himg, pageSize, Option.bind_eq_bind, Option.bind_eq_some_iff,
    Option.some.injEq, he] at hk
  obtain ⟨⟨f, s₁⟩, h₁, s₂, h₂, s₃, h₃, s₄, h₄, rfl⟩ := hk
  exact ⟨f, s₁, s₂, s₃, s₄, h₁, h₂, h₃, h₄, rfl⟩

variable (h : Tree S L (EntryOk K) s) (hL : ∀ q, HeapPath q → L q) (hK : ∀ q, HeapPath q → K q)
    (hroom : heapStart + 4096 * S.left s.mem s.frames ≤ heapLimit) (himg : img.physicalMemoryEnd = 2 ^ 32)
include h hL hK

lemma firstPage {f : ℕ} {s₁ s₂ : State α} (h₁ : s.kallocFrame S.kallocFrame = some (f, s₁))
    (h₂ : mapPage S.kallocFrame s₁ heapStart f 0xF = some s₂) :
    ∃ n s₃ s₄, f = 4096 * n ∧ MapsNew S L s s₂ heapStart n ∧ SameTables S s₂ s₄ ∧ Tree S L (EntryOk K) s₄ ∧
      S.left s₄.mem s₄.frames = S.left s₂.mem s₂.frames ∧
      setSize s₂ heapStart 4096 = some s₃ ∧ setLast s₃ heapStart = some s₄ ∧
      load (view s₄) 8 heapStart = 2 * 4096 + 1 := by
  obtain ⟨n, rfl, ht₂, hnew⟩ := mapsNew h inHeap_start.outside (by decide) (fun _ => by decide) h₁ h₂
  have hpage : ∀ x, x < heapStart + 8 → x < heapStart + 4096 := fun x hx =>
    hx.trans_le (Nat.add_le_add_left (by decide) _)
  have hnode : ∀ x, heapStart ≤ x → x < heapStart + 8 → Usable L K x := fun x hx hx' =>
    have hin := (inHeap_first hx (hpage x hx')).1
    ⟨hin.outside, hin.canonical, hL _ ⟨x, hin, rfl⟩, hK _ ⟨x, hin, rfl⟩⟩
  have hm₂ : ∀ x, heapStart ≤ x → x < heapStart + 8 → Mapped s₂ x := by
    intro x hx hx'
    rw [Mapped, hnew.satp, (inHeap_first hx (hpage x hx')).2, hnew.self]
    rfl
  obtain ⟨s₃, hs₃, ht₃, hsame₃, hv₃⟩ := setSize_eq ht₂ hnode hm₂ (by decide : 4096 < 2 ^ 63)
  have hm₃ : ∀ x, heapStart ≤ x → x < heapStart + 8 → Mapped s₃ x := fun x hx hx' =>
    (hsame₃.mapped (hnode x hx hx').outside).mpr (hm₂ x hx hx')
  have hload : ∀ (s' : State α) (m : Memory), (∀ x, Outside x → Canonical x → L (path x) → view s' x = m x) →
      load (view s') 8 heapStart = load m 8 heapStart := fun s' m hm =>
    load_congr fun x hx hx' => hm x (hnode x hx hx').outside (hnode x hx hx').canonical (hnode x hx hx').owned
  obtain ⟨s₄, hs₄, ht₄, hsame₄, hv₄⟩ := setLast_eq ht₃ hnode hm₃
  have hsame := hsame₃.trans hsame₄
  -- The new page is zero, so the status word starts without the last bit.
  have hzero : load (view s₂) 8 heapStart = 0 := by
    refine Zero.load (fun x hx hx' => ?_) le_rfl le_rfl
    exact hnew.view_self (hL _ ⟨_, inHeap_start, rfl⟩) x (inHeap_first hx (hpage x hx')).2
  have hsize : load (view s₃) 8 heapStart = 2 * 4096 := by
    rw [hload s₃ _ hv₃, hzero, load_store_of_lt (by norm_num)]
  refine ⟨n, s₃, s₄, rfl, hnew, hsame, ht₄, hsame.left ht₂.good, hs₃, hs₄, ?_⟩
  rw [hload s₄ _ hv₄, hsize, show (2 * 4096 ||| 1 : ℕ) = 2 * 4096 + 1 from rfl, load_store_of_lt (by norm_num)]

include hroom himg

lemma virtualAllocatorInit_spec (hk : virtualAllocatorInit S.kallocFrame img s = some s') :
    ∃ n s₁ s₂, s.kallocFrame S.kallocFrame = some (4096 * n, s₁) ∧ MapsNew S L s s₂ heapStart n ∧
      SameTables S s₂ { s' with freeList := s₂.freeList, virtualAllocEnd := s₂.virtualAllocEnd } ∧
      HeapOk S L K s' ∧ s'.freeList = heapStart ∧ s'.virtualAllocEnd = heapStart + 4096 ∧
      S.left s.mem s.frames = S.left s'.mem s'.frames + 1 + missingTables s.mem s.satp heapStart := by
  obtain ⟨f, s₁, s₂, s₃, s₄, h₁, h₂, h₃, h₄, rfl⟩ := virtualAllocatorInit_cases himg hk
  obtain ⟨n, s₃', s₄', rfl, hnew, hsame, ht₄, hleft, hs₃, hs₄, hstatus⟩ := firstPage h hL hK h₁ h₂
  obtain rfl : s₃ = s₃' := Option.some.inj (h₃.symm.trans hs₃)
  obtain rfl : s₄ = s₄' := Option.some.inj (h₄.symm.trans hs₄)
  have hnewleft := hnew.left
  refine ⟨n, s₁, s₂, h₁, hnew, ⟨hsame.satp, hsame.frames, rfl, rfl, hsame.records, hsame.walk⟩,
    ⟨ht₄.setEnds _ _, hL, hK, ?_, ?_, ?_, le_rfl, ?_, ?_⟩, rfl, rfl, ?_⟩
  · change (heapStart + 4096) % 4096 = 0
    rw [heapStart_eq]
  · change heapStart + 4096 + 4096 * S.left s₄.mem s₄.frames ≤ heapLimit
    generalize heapStart = e at *
    omega
  · intro x hx hx'
    have hp := inHeap_first hx hx'
    have hm : Mapped s₂ x := by
      rw [Mapped, hnew.satp, hp.2, hnew.self]
      rfl
    exact (hsame.mapped hp.1.outside).mpr hm
  · change heapStart + 16 ≤ heapStart + 4096
    exact Nat.add_le_add_left (by decide) _
  · change load (view s₄) 8 heapStart = 2 * (heapStart + 4096 - heapStart) + 1
    rw [Nat.add_sub_cancel_left]
    exact hstatus
  · exact hnewleft.trans (by rw [← hleft])

omit hroom in
lemma virtualAllocatorInit_isSome (hl : 4 ≤ S.left s.mem s.frames) :
    ∃ s', virtualAllocatorInit S.kallocFrame img s = some s' := by
  have hmiss := missingTables_le s.mem s.satp heapStart
  obtain ⟨f, s₁, s₂, h₁, h₂⟩ := mapsNew_isSome h inHeap_start.outside 0xF (by omega)
  obtain ⟨n, s₃, s₄, _, _, _, _, _, h₃, h₄, _⟩ := firstPage h hL hK h₁ h₂
  exact ⟨_, by
    simp only [virtualAllocatorInit, virtualHeapStart_eq himg, pageSize, h₁, h₂, h₃, h₄, Option.bind_eq_bind,
      Option.bind_some]
    rfl⟩

end Init

/-- `os_start` up to the point where the kernel heap can be used. -/
def boot (img : Image) (m : Memory) : Option (State Frames) := do
  let s ← pagingInit (PhysicalAllocator.kallocFrame (reserved img)) (cleared img m)
  virtualAllocatorInit (PhysicalAllocator.kallocFrame (reserved img)) img s

/-- The memory of the linker script with enough room for the allocator, and frames that are zero
until they are handed out. -/
structure Ready (img : Image) (m : Memory) : Prop where
  room : Room img
  memoryEnd : img.physicalMemoryEnd = 2 ^ 32
  zero : ∀ i < reserved img, Zero m (frame img i) 4096

/-- The first state of the kernel heap. Of the five frames in use, two are the tables of `paging_init`,
one is the heap page and two are tables on the way to it. -/
structure Booted (img : Image) (hr : Room img) (L K : List (Fin 512) → Prop) (s : State Frames) : Prop where
  heap : HeapOk (source img hr) L K s
  freeList : s.freeList = heapStart
  virtualAllocEnd : s.virtualAllocEnd = heapStart + 4096
  used : Used img s.mem 5
  first : walk (slot s.mem) s.satp (path heapStart) = some (frame img 2 / 4096)
  empty : ∀ q, Inside Node q → ¬ q <+: path heapStart → ¬ DirectMapped q → walk (slot s.mem) s.satp q = none

lemma path_heapStart : path heapStart = [256, 4, 0, 0] := by
  rw [heapStart_eq]
  decide

namespace Ready

variable {img : Image} {m : Memory} {L K : List (Fin 512) → Prop} (hr : Ready img m)
include hr

lemma cleared_zero (t : ℕ) (ht : (source img hr.room).Free (cleared img m).mem (cleared img m).frames t) :
    Zero (cleared img m).mem (4096 * t) 4096 := by
  obtain ⟨i, hi, hf, _⟩ := ht
  intro x hx hx'
  simp only [cleared, physicalAllocatorInit, clearFlags_apply]
  split
  · rfl
  · exact hr.zero i hi x (hf ▸ hx) (hf ▸ hx')

variable (hL : ∀ q, HeapPath q → L q) (hK : ∀ q, HeapPath q → K q)
include hL hK

lemma boot_spec {s : State Frames} (hb : boot img m = some s) : Booted img hr.room L K s := by
  obtain ⟨s₁, hp, hv⟩ := Option.bind_eq_some_iff.mp hb
  obtain ⟨n₁, t₁, n₂, t₂, hk₁, hk₂, hframes, htree, hbuilt⟩ := pagingInit_spec (S := source img hr.room) (L := L)
    EntryOk.table (cleared_good img hr.room m) hr.cleared_zero hp
  have hleft := hbuilt.left
  rw [cleared_left] at hleft
  have hres := reserved_le img
  have hroom : heapStart + 4096 * (source img hr.room).left s₁.mem s₁.frames ≤ heapLimit := by
    rw [heapStart_eq, heapLimit_eq]
    omega
  obtain ⟨n, s₂, s₃, hk, hnew, hsame, hok, hfl, hend, hlast⟩ :=
    virtualAllocatorInit_spec htree hL hK hroom hr.memoryEnd hv
  have hmiss : missingTables s₁.mem s₁.satp heapStart = 2 := by
    have hp := path_heapStart
    simp only [path, List.cons.injEq, and_true] at hp
    have hd : ∀ q, q <+: [256, 4, 0, 0] → ¬ DirectMapped q := fun q hq hh =>
      inHeap_start.outside (hh.of_prefix (path_heapStart ▸ hq))
    have h₂ : walk (slot s₁.mem) n₁ [256, 4] = none := hbuilt.empty _ (hd _ ⟨_, rfl⟩) (by simp) (by simp)
    have h₃ : walk (slot s₁.mem) n₁ [256, 4, 0] = none := hbuilt.empty _ (hd _ ⟨_, rfl⟩) (by simp) (by simp)
    rw [missingTables, missingTable, missingTable, missingTable, hbuilt.satp, hp.1, hp.2.1, hp.2.2.1, hbuilt.second,
      h₂, h₃]
    rfl
  have hused₁ : Used img s₁.mem 2 := used_of_left htree.good (by omega)
  have hn : 4096 * n = frame img 2 := kallocFrame_used htree.good hused₁ hk
  have hsatp : s.satp = s₁.satp := hsame.satp.trans hnew.satp
  have hwalk : ∀ q, Inside Node q → walk (slot s.mem) s.satp q = walk (slot s₃.mem) s₁.satp q := by
    intro q hq
    rw [hsatp, ← hnew.satp]
    exact hsame.walk q hq
  refine ⟨hok, hfl, hend, used_of_left hok.tree.good (by omega), ?_, ?_⟩
  · rw [hwalk _ (inside_path inHeap_start.outside), hnew.self, ← hn, Nat.mul_div_cancel_left n (by decide)]
  · intro q hq hpre hd
    rw [hwalk q hq, hnew.other q hq hpre, hbuilt.satp]
    rw [path_heapStart] at hpre
    refine hbuilt.empty q hd ?_ ?_
    · rintro rfl
      exact hpre List.nil_prefix
    · rintro rfl
      exact hpre ⟨_, rfl⟩

omit hL hK in
lemma boot_isSome (hl : 6 ≤ reserved img) : ∃ s, boot img m = some s := by
  obtain ⟨s₁, hp⟩ := pagingInit_isSome (cleared_good img hr.room m) (by rw [cleared_left]; omega)
  obtain ⟨n₁, _, n₂, _, _, _, _, htree, hbuilt⟩ := pagingInit_spec (S := source img hr.room) (L := fun _ => True)
    (EntryOk.table (K := fun _ => True)) (cleared_good img hr.room m) hr.cleared_zero hp
  have hleft := hbuilt.left
  rw [cleared_left] at hleft
  obtain ⟨s, hv⟩ := virtualAllocatorInit_isSome htree (fun _ _ => trivial) (fun _ _ => trivial) hr.memoryEnd (by omega)
  exact ⟨s, Option.bind_eq_some_iff.mpr ⟨s₁, hp, hv⟩⟩

end Ready

lemma megabyteImage_ready : Ready megabyteImage fun _ => 0 :=
  ⟨megabyteImage_room, rfl, fun _ _ _ _ _ => rfl⟩

end TetraOS.Memory
