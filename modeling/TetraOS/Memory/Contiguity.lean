import TetraOS.Memory.HeapRuns

/-! Which blocks of the kernel heap are physically contiguous. Frames come out in order, so two adjacent
heap pages have adjacent frames exactly if no frame was drawn for anything else between theirs: not for
a page table of the first of them, and not by another caller. -/

namespace TetraOS.Memory

open Library.ByteMemory Library.TableTree VirtualPage FreeSpace PhysicalAllocator Relation

variable {α : Type}

def HasTable (s : State α) (va : ℕ) : Prop :=
  (walk (slot s.mem) s.satp [getVpn3 va, getVpn2 va, getVpn1 va]).isSome

/-- The page boundaries up to the end of the heap at which a frame was drawn for something else after
the frame of the page before. -/
abbrev Breaks := Set ℕ

/-- Whether the boundary `b` is such a break once the heap has grown beyond it. A page that is yet to be
mapped takes a frame for a table if it is the first one of a table that is not there. -/
def Broken (breaks : Breaks) (s : State α) (b : ℕ) : Prop :=
  (b ≤ s.virtualAllocEnd ∧ b ∈ breaks) ∨
    (s.virtualAllocEnd < b ∧ (b - 4096) % 2 ^ 21 = 0 ∧ ¬ HasTable s (b - 4096))

section Tables

variable {m : Memory} {r va : ℕ}

lemma missingTables_eq_zero_iff {s : State α} : missingTables s.mem s.satp va = 0 ↔ HasTable s va := by
  have h₂ : walk (slot s.mem) s.satp ([getVpn3 va] ++ [getVpn2 va]) = _ := walk_concat _ _
  have h₃ : walk (slot s.mem) s.satp ([getVpn3 va, getVpn2 va] ++ [getVpn1 va]) = _ := walk_concat _ _
  rw [missingTables, missingTable, missingTable, missingTable, HasTable]
  simp only [List.cons_append, List.nil_append] at h₂ h₃
  generalize walk (slot s.mem) s.satp [getVpn3 va, getVpn2 va, getVpn1 va] = w₃ at *
  generalize walk (slot s.mem) s.satp [getVpn3 va, getVpn2 va] = w₂ at *
  generalize walk (slot s.mem) s.satp [getVpn3 va] = w₁ at *
  cases w₃ with
  | none => simp
  | some t₃ =>
    cases w₂ with
    | none => cases h₃
    | some t₂ =>
      cases w₁ with
      | none => cases h₂
      | some t₁ => simp

lemma HasTable.of_mapped {s : State α} (h : Mapped s va) : HasTable s va := by
  rw [Mapped, path_eq_concat, walk_concat] at h
  rw [HasTable]
  cases hw : walk (slot s.mem) s.satp [getVpn3 va, getVpn2 va, getVpn1 va] with
  | none =>
    rw [hw] at h
    cases h
  | some t => rfl

lemma vpns_eq_of_region {a b : ℕ} (ha : InHeap a) (hb : InHeap b) (h : a / 2 ^ 21 = b / 2 ^ 21) :
    [getVpn3 a, getVpn2 a, getVpn1 a] = [getVpn3 b, getVpn2 b, getVpn1 b] := by
  have hbounds := ha.bounds
  have hbounds' := hb.bounds
  simp only [List.cons.injEq, and_true, Fin.ext_iff, getVpn3_val, getVpn2_val, getVpn1_val]
  omega

lemma not_prefix_of_region {a b : ℕ} (ha : InHeap a) (hb : InHeap b) (h : a / 2 ^ 21 ≠ b / 2 ^ 21) :
    ¬ [getVpn3 a, getVpn2 a, getVpn1 a] <+: path b := by
  have hbounds := ha.bounds
  have hbounds' := hb.bounds
  simp only [path, List.cons_prefix_cons, List.nil_prefix, and_true, Fin.ext_iff, getVpn3_val, getVpn2_val, getVpn1_val]
  omega

end Tables

lemma broken_of_le {breaks : Breaks} {s : State α} {b : ℕ} (hb : b ≤ s.virtualAllocEnd) :
    Broken breaks s b ↔ b ∈ breaks := by
  rw [Broken, or_iff_left (fun h => absurd h.1 (by omega)), and_iff_right hb]

lemma broken_of_lt {breaks : Breaks} {s : State α} {b : ℕ} (hb : s.virtualAllocEnd < b) :
    Broken breaks s b ↔ (b - 4096) % 2 ^ 21 = 0 ∧ ¬ HasTable s (b - 4096) := by
  rw [Broken, or_iff_right (fun h => absurd h.1 (by omega)), and_iff_right hb]

namespace HeapOk

variable {S : FrameSource α} {L K : List (Fin 512) → Prop} {s : State α} (h : HeapOk S L K s)
include h

lemma start_lt : heapStart < s.virtualAllocEnd := by
  have := h.start
  have := h.space
  omega

lemma hasTable_end (hne : s.virtualAllocEnd % 2 ^ 21 ≠ 0) (hend : InHeap s.virtualAllocEnd) :
    HasTable s s.virtualAllocEnd := by
  have hal := h.aligned
  have hlo := h.start_lt
  have hs : heapStart % 4096 = 0 := by rw [heapStart_eq]
  have hprev : HasTable s (s.virtualAllocEnd - 4096) := HasTable.of_mapped (h.mapped _ (by omega) (by omega))
  have hin : InHeap (s.virtualAllocEnd - 4096) := h.inHeap (by omega) (by omega)
  have heq := vpns_eq_of_region hin hend (by omega)
  rw [HasTable] at hprev ⊢
  rw [← heq]
  exact hprev

end HeapOk

lemma frame_add (img : Image) (i j : ℕ) : frame img (i + j) = frame img i + 4096 * j := by
  rw [frame, frame]
  simp only [frameSize]
  omega

structure Recorded (img : Image) (hr : Room img) (breaks : Breaks) (s : State Frames) : Prop where
  heap : HeapOk (source img hr) HeapPath HeapPath s
  inner : ∀ b, b % 4096 = 0 → heapStart < b → b < s.virtualAllocEnd →
    ∃ n k, walk (slot s.mem) s.satp (path (b - 4096)) = some n ∧ walk (slot s.mem) s.satp (path b) = some k ∧
      (b ∈ breaks ↔ k ≠ n + 1)
  last : ∃ n u, walk (slot s.mem) s.satp (path (s.virtualAllocEnd - 4096)) = some n ∧ Used img s.mem u ∧
    4096 * (n + 1) ≤ frame img u ∧ (s.virtualAllocEnd ∈ breaks ↔ 4096 * (n + 1) ≠ frame img u)

namespace Recorded

variable {img : Image} {hr : Room img} {breaks : Breaks} {s s₁ s₂ s' : State Frames} (h : Recorded img hr breaks s)
include h

lemma extended {f : ℕ} (hk : s.kallocFrame (source img hr).kallocFrame = some (f, s₁))
    (hext : Extended (source img hr) HeapPath HeapPath s s' f) : Recorded img hr {b | Broken breaks s b} s' := by
  obtain ⟨_, hend, h', ⟨hsatp, _, _, _, _⟩, ⟨k, rfl, hself⟩, hother, hleft⟩ := hext
  obtain ⟨n, u, hn, hu, hle, hlast⟩ := h.last
  have hal := h.heap.aligned
  have hlo := h.heap.start_lt
  have hs : heapStart % 4096 = 0 := by rw [heapStart_eq]
  have hlim := h'.end_le
  have hf : 4096 * k = frame img u := kallocFrame_used h.heap.tree.good hu hk
  have hpage : ∀ x, heapStart ≤ x → x < s.virtualAllocEnd →
      walk (slot s'.mem) s'.satp (path x) = walk (slot s.mem) s.satp (path x) := by
    intro x hx hx'
    rw [hsatp]
    exact hother _ (inside_path (h.heap.inHeap hx hx').outside)
      (not_prefix_path (h.heap.path_ne_end hx hx' le_rfl (by omega)))
  refine ⟨h', ?_, ?_⟩
  · intro b hb hb₁ hb₂
    rw [Set.mem_ofPred_eq, broken_of_le (by omega), hpage (b - 4096) (by omega) (by omega)]
    by_cases hbe : b < s.virtualAllocEnd
    · rw [hpage b hb₁.le hbe]
      exact h.inner b hb hb₁ hbe
    · obtain rfl : b = s.virtualAllocEnd := by omega
      rw [hsatp, hself]
      exact ⟨n, k, hn, rfl, by rw [hlast]; omega⟩
  · have hul := hu.framesLeft_eq
    have hule := hu.le
    rw [source_left, source_left] at hleft
    have hu' : Used img s'.mem (u + (1 + missingTables s.mem s.satp s.virtualAllocEnd)) :=
      used_of_left h'.tree.good (by rw [source_left]; omega)
    have hiff : Broken breaks s (s.virtualAllocEnd + 4096) ↔ missingTables s.mem s.satp s.virtualAllocEnd ≠ 0 := by
      rw [broken_of_lt (by omega), Nat.add_sub_cancel, Ne, missingTables_eq_zero_iff, and_iff_right_iff_imp]
      intro hno
      by_contra hne
      exact hno (h.heap.hasTable_end hne ⟨hlo.le, by omega⟩)
    rw [hend, Nat.add_sub_cancel, hsatp]
    refine ⟨k, _, hself, hu', ?_, ?_⟩
    · rw [frame_add]
      omega
    · rw [Set.mem_ofPred_eq, hiff, frame_add]
      omega

lemma broken_extended {f : ℕ} (hext : Extended (source img hr) HeapPath HeapPath s s' f) {b : ℕ} (hb : b ≤ heapLimit) :
    Broken {b | Broken breaks s b} s' b ↔ Broken breaks s b := by
  have hlo := h.heap.start_lt
  have hend := hext.virtualAllocEnd
  by_cases hle : b ≤ s'.virtualAllocEnd
  · rw [broken_of_le hle, Set.mem_ofPred_eq]
  · rw [broken_of_lt (by omega), broken_of_lt (by omega)]
    apply and_congr_right
    intro hreg
    have hin : InHeap (b - 4096) := ⟨by omega, by omega⟩
    have hend' : InHeap s.virtualAllocEnd := ⟨hlo.le, by omega⟩
    have hnode : Inside Node [getVpn3 (b - 4096), getVpn2 (b - 4096), getVpn1 (b - 4096)] :=
      Inside.of_prefix (inside_path hin.outside) ⟨[getVpn0 (b - 4096)], rfl⟩
    rw [HasTable, HasTable, hext.keeps.satp, hext.other _ hnode (not_prefix_of_region hin hend' (by omega))]

lemma congr {breaks' : Breaks} (hb : ∀ b ≤ s.virtualAllocEnd, b ∈ breaks' ↔ b ∈ breaks) :
    Recorded img hr breaks' s := by
  refine ⟨h.heap, ?_, ?_⟩
  · intro b hal hlo hhi
    rw [hb b hhi.le]
    exact h.inner b hal hlo hhi
  · rw [hb _ le_rfl]
    exact h.last

lemma drawn {d : ℕ} (h' : HeapOk (source img hr) HeapPath HeapPath s') (hsatp : s'.satp = s.satp)
    (hend : s'.virtualAllocEnd = s.virtualAllocEnd)
    (hwalk : ∀ x, InHeap x → walk (slot s'.mem) s.satp (path x) = walk (slot s.mem) s.satp (path x))
    (hleft : framesLeft img s.mem = framesLeft img s'.mem + d) :
    Recorded img hr {b | b ∈ breaks ∨ b = s.virtualAllocEnd ∧ d ≠ 0} s' := by
  have hlo := h.heap.start_lt
  have hal := h.heap.aligned
  have hs : heapStart % 4096 = 0 := by rw [heapStart_eq]
  have hw : ∀ x, heapStart ≤ x → x < s.virtualAllocEnd →
      walk (slot s'.mem) s'.satp (path x) = walk (slot s.mem) s.satp (path x) := by
    intro x hx hx'
    rw [hsatp]
    exact hwalk x (h.heap.inHeap hx hx')
  refine ⟨h', ?_, ?_⟩
  · intro b hb hb₁ hb₂
    rw [hend] at hb₂
    rw [hw _ (by omega) (by omega), hw _ hb₁.le hb₂, Set.mem_ofPred_eq, or_iff_left (fun hh => absurd hh.1 (by omega))]
    exact h.inner b hb hb₁ hb₂
  · obtain ⟨n, u, hn, hu, hle, hlast⟩ := h.last
    have hul := hu.framesLeft_eq
    have hule := hu.le
    have hu' : Used img s'.mem (u + d) := used_of_left h'.tree.good (by rw [source_left]; omega)
    rw [hend, hw _ (by omega) (by omega)]
    refine ⟨n, u + d, hn, hu', ?_, ?_⟩
    · rw [frame_add]
      omega
    · rw [Set.mem_ofPred_eq, hlast, frame_add]
      omega

lemma growList {fuel size : ℕ} (hsize : size < 2 ^ 62)
    (hg : growList (source img hr).kallocFrame s.freeList size fuel s = some s') :
    Recorded img hr {b | Broken breaks s b} s' := by
  induction fuel generalizing s breaks with
  | zero => cases hg
  | succ fuel ih =>
    by_cases hlt : s.virtualAllocEnd - s.freeList < size + 32
    · obtain ⟨f, s₁, s₂, hk, hm⟩ := h.heap.growList_draws (by omega) hlt hg
      obtain ⟨s₃, hloop, hext⟩ := h.heap.growList_step (by omega) hlt hk hm
      rw [hloop] at hg
      have h' := ih (h.extended hk hext) hg
      exact h'.congr fun b hb => (h.broken_extended hext (hb.trans h'.heap.end_le)).symm
    · rw [h.heap.growList_enough (by omega) (by omega)] at hg
      obtain rfl := Option.some.inj hg
      exact h.congr fun b hb => broken_of_le hb

lemma kalloc {fuel size p : ℕ} (hsize : size < 2 ^ 62)
    (hk : kalloc (source img hr).kallocFrame fuel s size = some (p, s')) :
    Recorded img hr {b | Broken breaks s b} s' := by
  obtain ⟨s₁, hcase, h₁, hfl, hfit, _, hs⟩ := h.heap.kalloc_parts (by omega) hk
  have hrec₁ : Recorded img hr {b | Broken breaks s b} s₁ := by
    rcases hcase with rfl | ⟨fuel, hg⟩
    · exact h.congr fun b hb => broken_of_le hb
    · exact h.growList hsize hg
  obtain ⟨s₂, hs₂, h₂, _, hsame, _⟩ := h₁.splitBlock (by omega) hfit
  rw [hfl, hs, Option.some.injEq, Prod.mk.injEq] at hs₂
  obtain ⟨_, rfl⟩ := hs₂
  have hleft := hsame.left h₁.tree.good
  have h' := hrec₁.drawn (d := 0) h₂ hsame.satp hsame.virtualAllocEnd
    (fun x hx => hsame.walk _ (inside_path hx.outside)) hleft.symm
  exact h'.congr fun b _ => by simp

end Recorded

/-- What a device needs that is given the physical address of the first byte and the length. -/
def Contiguous (s : State α) (b : Block) : Prop :=
  ∀ i < b.2, getPhysicalAddressOfVirtualAddress s (b.1 + i) = getPhysicalAddressOfVirtualAddress s b.1 + i

namespace Recorded

variable {img : Image} {hr : Room img} {breaks : Breaks} {s : State Frames} (h : Recorded img hr breaks s)
include h

lemma address {x n : ℕ} (hw : walk (slot s.mem) s.satp (path x) = some n) :
    getPhysicalAddressOfVirtualAddress s x = 4096 * n + x % 4096 := by
  rw [getPhysicalAddress_eq_walk (h.heap.tree.lt_of_node node_nil walk_nil) h.heap.tree.root, hw, Option.elim_some]

lemma address_boundary {b : ℕ} (hb : b % 4096 = 0) (hlo : heapStart < b) (hhi : b < s.virtualAllocEnd) :
    b ∉ breaks ↔ getPhysicalAddressOfVirtualAddress s b = getPhysicalAddressOfVirtualAddress s (b - 1) + 1 := by
  have hs : heapStart % 4096 = 0 := by rw [heapStart_eq]
  obtain ⟨n, k, hn, hk, hiff⟩ := h.inner b hb hlo hhi
  have hin : InHeap (b - 1) := h.heap.inHeap (by omega) (by omega)
  have hpath : path (b - 1) = path (b - 4096) := by
    rw [hin.path_eq_iff (h.heap.inHeap (by omega) (by omega))]
    omega
  rw [← hpath] at hn
  rw [h.address hk, h.address hn, hiff]
  omega

lemma address_succ {x : ℕ} (hlo : heapStart ≤ x) (hhi : x + 1 < s.virtualAllocEnd) (hb : (x + 1) % 4096 ≠ 0) :
    getPhysicalAddressOfVirtualAddress s (x + 1) = getPhysicalAddressOfVirtualAddress s x + 1 := by
  obtain ⟨n, hn⟩ := Option.isSome_iff_exists.mp (h.heap.mapped x hlo (by omega))
  have hpath : path (x + 1) = path x := by
    rw [(h.heap.inHeap (by omega) hhi).path_eq_iff (h.heap.inHeap hlo (by omega))]
    omega
  have hn' := hn
  rw [← hpath] at hn'
  rw [h.address hn, h.address hn']
  omega

lemma contiguous_iff {b : Block} (hlo : heapStart ≤ b.1) (hhi : b.1 + b.2 ≤ s.virtualAllocEnd) :
    Contiguous s b ↔ ∀ x, x % 4096 = 0 → b.1 < x → x < b.1 + b.2 → x ∉ breaks := by
  constructor
  · intro hc x hx hx₁ hx₂
    rw [h.address_boundary hx (by omega) (by omega)]
    have h₁ := hc (x - b.1) (by omega)
    have h₂ := hc (x - 1 - b.1) (by omega)
    rw [show b.1 + (x - b.1) = x by omega] at h₁
    rw [show b.1 + (x - 1 - b.1) = x - 1 by omega] at h₂
    omega
  · intro hb i hi
    induction i with
    | zero => rfl
    | succ i ih =>
      have hi' := ih (by omega)
      by_cases hx : (b.1 + i + 1) % 4096 = 0
      · have hbound := (h.address_boundary hx (by omega) (by omega)).mp (hb _ hx (by omega) (by omega))
        rw [Nat.add_sub_cancel] at hbound
        rw [← Nat.add_assoc, hbound, hi', Nat.add_assoc]
      · rw [← Nat.add_assoc, h.address_succ (by omega) (by omega) hx, hi', Nat.add_assoc]

end Recorded

structure DmaConfig where
  state : State Frames
  blocks : List Block
  dma : List Block
  breaks : Breaks

def Unbroken (breaks : Breaks) (s : State α) (size : ℕ) : Prop :=
  ∀ b, b % 4096 = 0 → s.freeList + 16 < b → b < s.freeList + 16 + size → ¬ Broken breaks s b

/-- The steps of the kernel: heap blocks for itself and, under `Cond`, for a device, frames and mappings of
other callers, and writes into blocks. -/
inductive DmaStep (img : Image) (Cond : Breaks → State Frames → ℕ → Prop) : DmaConfig → DmaConfig → Prop
  | kalloc {s s' blocks dma breaks fuel size p} : size < 2 ^ 62 →
      kalloc (kallocFrame (reserved img)) fuel s size = some (p, s') →
      DmaStep img Cond ⟨s, blocks, dma, breaks⟩ ⟨s', (p, size) :: blocks, dma, {b | Broken breaks s b}⟩
  | kallocDma {s s' blocks dma breaks fuel size p} : size < 2 ^ 62 → Cond breaks s size →
      kalloc (kallocFrame (reserved img)) fuel s size = some (p, s') →
      DmaStep img Cond ⟨s, blocks, dma, breaks⟩ ⟨s', (p, size) :: blocks, (p, size) :: dma, {b | Broken breaks s b}⟩
  | kallocFrame {s s' blocks dma breaks f} : s.kallocFrame (kallocFrame (reserved img)) = some (f, s') →
      DmaStep img Cond ⟨s, blocks, dma, breaks⟩ ⟨s', blocks, dma, {b | b ∈ breaks ∨ b = s.virtualAllocEnd}⟩
  | mapPage {s s' blocks dma breaks v f flag} : Outside v → ¬ HeapPath (path v) → flag < 2 ^ 16 →
      mapPage (PhysicalAllocator.kallocFrame (reserved img)) s v f flag = some s' →
      DmaStep img Cond ⟨s, blocks, dma, breaks⟩
        ⟨s', blocks, dma, {b | b ∈ breaks ∨ b = s.virtualAllocEnd ∧ ¬ HasTable s v}⟩
  | write {s s' blocks dma breaks b va x} : b ∈ blocks → va ∈ Block.range b → storeByte s va x = some s' →
      DmaStep img Cond ⟨s, blocks, dma, breaks⟩ ⟨s', blocks, dma, breaks⟩

-- After boot the tables on the way to the first heap page have followed its frame.
def DmaRun (img : Image) (m : Memory) (Cond : Breaks → State Frames → ℕ → Prop) (c : DmaConfig) : Prop :=
  ∃ s₀, boot img m = some s₀ ∧ ReflTransGen (DmaStep img Cond) ⟨s₀, [], [], {heapStart + 4096}⟩ c

structure DmaInv (img : Image) (hr : Room img) (c : DmaConfig) : Prop where
  recorded : Recorded img hr c.breaks c.state
  blocks : ∀ b ∈ c.blocks, heapStart ≤ b.1 ∧ b.1 + b.2 ≤ c.state.freeList
  dma : ∀ b ∈ c.dma, b ∈ c.blocks

namespace DmaInv

variable {img : Image} {hr : Room img} {Cond : Breaks → State Frames → ℕ → Prop} {c d : DmaConfig}

lemma step (h : DmaInv img hr c) (hs : DmaStep img Cond c d) : DmaInv img hr d := by
  have hblocks : ∀ {p size : ℕ} {s' : State Frames}, p = c.state.freeList + 16 → s'.freeList = p + size →
      ∀ b ∈ (p, size) :: c.blocks, heapStart ≤ b.1 ∧ b.1 + b.2 ≤ s'.freeList := by
    intro p size s' hp hfl b hb
    have hst := h.recorded.heap.start
    rcases List.mem_cons.mp hb with rfl | hb
    · omega
    · have := h.blocks b hb
      omega
  cases hs with
  | kalloc hsize hk =>
    obtain ⟨_, hp, hfl, _⟩ := h.recorded.heap.kalloc (by omega) hk
    exact ⟨h.recorded.kalloc hsize hk, hblocks hp hfl, fun b hb => List.mem_cons_of_mem _ (h.dma b hb)⟩
  | kallocDma hsize _ hk =>
    obtain ⟨_, hp, hfl, _⟩ := h.recorded.heap.kalloc (by omega) hk
    refine ⟨h.recorded.kalloc hsize hk, hblocks hp hfl, fun b hb => ?_⟩
    rcases List.mem_cons.mp hb with rfl | hb
    · exact List.mem_cons_self
    · exact List.mem_cons_of_mem _ (h.dma b hb)
  | @kallocFrame s s' blocks dma breaks f hk =>
    obtain ⟨h', hsatp, hfl, hend, hw, hleft⟩ := h.recorded.heap.kallocFrame (S := source img hr) hk
    have hrec := h.recorded.drawn h' hsatp hend (fun x hx => hw _ (inside_path hx.outside)) hleft
    exact ⟨hrec.congr fun b _ => by simp, hfl ▸ h.blocks, h.dma⟩
  | @mapPage s s' blocks dma breaks v f flag hv hnot hflag hm =>
    obtain ⟨h', hmap⟩ := h.recorded.heap.mapOther hv hnot hnot hflag hm
    have hrec := h.recorded.drawn h' hmap.satp hmap.virtualAllocEnd
      (fun x hx => hmap.other _ (inside_path hx.outside) (not_prefix_path fun hp => hnot ⟨x, hx, hp.symm⟩)) hmap.left
    refine ⟨hrec.congr fun b _ => ?_, hmap.freeList ▸ h.blocks, h.dma⟩
    rw [Set.mem_ofPred_eq, Set.mem_ofPred_eq, Ne, missingTables_eq_zero_iff]
  | @write s s' blocks dma breaks b va x hb hva hw =>
    have hst := h.recorded.heap.start
    have hsp := h.recorded.heap.space
    have hbb := h.blocks b hb
    obtain ⟨h₁, h₂⟩ := hva
    have hend : va < s.virtualAllocEnd := by
      dsimp only at hsp hbb
      omega
    have hin : InHeap va := h.recorded.heap.inHeap (by omega) hend
    obtain ⟨h', hsame, _⟩ := h.recorded.heap.storeByte hin.outside ⟨va, hin, rfl⟩ (Or.inl (by omega)) hw
    have hrec := h.recorded.drawn (d := 0) h' hsame.satp hsame.virtualAllocEnd
      (fun x hx => hsame.walk _ (inside_path hx.outside)) (hsame.left h.recorded.heap.tree.good).symm
    exact ⟨hrec.congr fun b _ => by simp, hsame.freeList ▸ h.blocks, h.dma⟩

lemma init {m : Memory} (hready : Ready img m) {s : State Frames} (hb : boot img m = some s) :
    DmaInv img hready.room ⟨s, [], [], {heapStart + 4096}⟩ := by
  have hbooted := hready.boot_spec (L := HeapPath) (K := HeapPath) (fun _ hq => hq) (fun _ hq => hq) hb
  have hend := hbooted.virtualAllocEnd
  have hfirst := hbooted.first
  have h₅ : frame img 5 = frame img 2 + 4096 * 3 := frame_add img 2 3
  have hpage := frame_page hready.room.start_le 2
  refine ⟨⟨hbooted.heap, ?_, ⟨frame img 2 / 4096, 5, ?_, hbooted.used, ?_, ?_⟩⟩,
    fun _ hb => absurd hb List.not_mem_nil, fun _ hb => absurd hb List.not_mem_nil⟩
  · intro b hb hlo hhi
    change b < s.virtualAllocEnd at hhi
    rw [hend] at hhi
    rw [heapStart_eq] at hlo hhi
    omega
  · change walk (slot s.mem) s.satp (path (s.virtualAllocEnd - 4096)) = _
    rw [hend, Nat.add_sub_cancel]
    exact hfirst
  · omega
  · change s.virtualAllocEnd ∈ ({heapStart + 4096} : Set ℕ) ↔ _
    rw [hend, Set.mem_singleton_iff]
    simp only [true_iff]
    omega

lemma run {m : Memory} (hready : Ready img m) (hrun : DmaRun img m Cond c) : DmaInv img hready.room c := by
  obtain ⟨s₀, hb, hrun⟩ := hrun
  induction hrun with
  | refl => exact DmaInv.init hready hb
  | tail _ hs ih => exact ih.step hs

lemma contiguous_kalloc (h : DmaInv img hr c) {fuel size p : ℕ} {s' : State Frames} (hsize : size < 2 ^ 62)
    (hk : kalloc (kallocFrame (reserved img)) fuel c.state size = some (p, s')) :
    Contiguous s' (p, size) ↔ Unbroken c.breaks c.state size := by
  obtain ⟨h', hp, hfl, _⟩ := h.recorded.heap.kalloc (S := source img hr) (by omega) hk
  have hst := h.recorded.heap.start
  have hsp := h'.space
  rw [(h.recorded.kalloc hsize hk).contiguous_iff (by dsimp only; omega) (by dsimp only; omega), hp]
  rfl

lemma contiguous_step (h : DmaInv img hr c) (hs : DmaStep img Cond c d) {b : Block} (hb : b ∈ c.blocks)
    (hc : Contiguous c.state b) : Contiguous d.state b := by
  have hd := h.step hs
  have hsp := h.recorded.heap.space
  have hin := h.blocks b hb
  rw [h.recorded.contiguous_iff hin.1 (by omega)] at hc
  have hbreaks : b ∈ d.blocks ∧ ∀ x, x < c.state.virtualAllocEnd → (x ∈ d.breaks ↔ x ∈ c.breaks) := by
    cases hs with
    | kalloc _ _ => exact ⟨List.mem_cons_of_mem _ hb, fun x hx => broken_of_le hx.le⟩
    | kallocDma _ _ _ => exact ⟨List.mem_cons_of_mem _ hb, fun x hx => broken_of_le hx.le⟩
    | kallocFrame _ => exact ⟨hb, fun x hx => or_iff_left hx.ne⟩
    | mapPage _ _ _ _ => exact ⟨hb, fun x hx => or_iff_left fun hh => hx.ne hh.1⟩
    | write _ _ _ => exact ⟨hb, fun _ _ => Iff.rfl⟩
  have hin' := hd.blocks b hbreaks.1
  have hsp' := hd.recorded.heap.space
  rw [hd.recorded.contiguous_iff hin.1 (by omega)]
  intro x hx hx₁ hx₂
  rw [hbreaks.2 x (by omega)]
  exact hc x hx hx₁ hx₂

end DmaInv

/-- Blocks for a device are contiguous in every state if no break lies inside any of them when it is
handed out; and only then. -/
theorem dma_contiguous (img : Image) (m : Memory) (hready : Ready img m) (c : DmaConfig)
    (hrun : DmaRun img m Unbroken c) :
    (∀ b ∈ c.dma, Contiguous c.state b) ∧
    ∀ fuel size p s', size < 2 ^ 62 → kalloc (kallocFrame (reserved img)) fuel c.state size = some (p, s') →
      (Contiguous s' (p, size) ↔ Unbroken c.breaks c.state size) := by
  refine ⟨?_, fun fuel size p s' hsize hk => (DmaInv.run hready hrun).contiguous_kalloc hsize hk⟩
  obtain ⟨s₀, hb, hrun⟩ := hrun
  induction hrun with
  | refl => exact fun b hb => absurd hb List.not_mem_nil
  | @tail c d hcd hs ih =>
    have h : DmaInv img hready.room c := DmaInv.run hready ⟨s₀, hb, hcd⟩
    intro b hbd
    have hold : ∀ b ∈ c.dma, Contiguous d.state b := fun b hb => h.contiguous_step hs (h.dma b hb) (ih b hb)
    cases hs with
    | kalloc _ _ => exact hold b hbd
    | kallocFrame _ => exact hold b hbd
    | mapPage _ _ _ _ => exact hold b hbd
    | write _ _ _ => exact hold b hbd
    | kallocDma hsize hcond hk =>
      rcases List.mem_cons.mp hbd with rfl | hbd
      · exact (h.contiguous_kalloc hsize hk).mpr hcond
      · exact hold b hbd

section Examples

lemma boot_megabyte : ∃ s, boot megabyteImage (fun _ => 0) = some s ∧
    Booted megabyteImage megabyteImage_ready.room HeapPath HeapPath s := by
  obtain ⟨s, hb⟩ := megabyteImage_ready.boot_isSome (by rw [megabyteImage_reserved]; decide)
  exact ⟨s, hb, megabyteImage_ready.boot_spec (fun _ hq => hq) (fun _ hq => hq) hb⟩

/-- A block of the kernel that fills the first heap page, a block for a device over the boundary of the
second and the third page, and a frame for somebody else. -/
theorem dma_contiguous_two_pages : ∃ c p, DmaRun megabyteImage (fun _ => 0) Unbroken c ∧ c.dma = [(p, 6000)] ∧
    p < heapStart + 8192 ∧ heapStart + 8192 < p + 6000 ∧ Contiguous c.state (p, 6000) := by
  obtain ⟨s₀, hb, hbooted⟩ := boot_megabyte
  have hs : heapStart % 2 ^ 21 = 0 := by rw [heapStart_eq]; norm_num
  have hfl₀ := hbooted.freeList
  have hend₀ := hbooted.virtualAllocEnd
  have hleft₀ : (source megabyteImage megabyteImage_ready.room).left s₀.mem s₀.frames = 32763 := by
    rw [source_left, hbooted.used.framesLeft_eq, megabyteImage_reserved]
  obtain ⟨p₁, s₁, hk₁, hleft₁⟩ := hbooted.heap.kalloc_frames (by decide : 4096 + 32 < 2 ^ 64)
    (by omega : 4096 + 32 ≤ s₀.virtualAllocEnd - s₀.freeList + 4096 * 1) (by decide : 1 < 2) (by omega)
  obtain ⟨h₁, hp₁, hfl₁, _⟩ := hbooted.heap.kalloc (by decide) hk₁
  have hsp₁ := h₁.space
  have hal₁ := h₁.aligned
  obtain ⟨p₂, s₂, hk₂, hleft₂⟩ := h₁.kalloc_frames (by decide : 6000 + 32 < 2 ^ 64)
    (by omega : 6000 + 32 ≤ s₁.virtualAllocEnd - s₁.freeList + 4096 * 2) (by decide : 2 < 3) (by omega)
  obtain ⟨h₂, hp₂, _, _⟩ := h₁.kalloc (by decide) hk₂
  obtain ⟨⟨f, m, a⟩, hk⟩ := Option.isSome_iff_exists.mp
    ((source megabyteImage megabyteImage_ready.room).isSome h₂.tree.good (by omega))
  obtain ⟨s₃, hk₃⟩ : ∃ s₃, s₂.kallocFrame (kallocFrame (reserved megabyteImage)) = some (f, s₃) :=
    ⟨_, congrArg (Option.map _) hk⟩
  have hcond : Unbroken {b | Broken {heapStart + 4096} s₀ b} s₁ 6000 := by
    intro b hal hlo hhi hbroken
    have heq : b = heapStart + 8192 := by omega
    rw [heq] at hbroken
    have hold : Broken {heapStart + 4096} s₀ (heapStart + 8192) := (broken_of_le (by omega)).mp hbroken
    have hregion := ((broken_of_lt (by omega)).mp hold).1
    omega
  have hrun : DmaRun megabyteImage (fun _ => 0) Unbroken ⟨s₃, [(p₂, 6000), (p₁, 4096)], [(p₂, 6000)], _⟩ :=
    ⟨s₀, hb, .tail (.tail (.single (.kalloc (by decide) hk₁)) (.kallocDma (by decide) hcond hk₂)) (.kallocFrame hk₃)⟩
  exact ⟨_, p₂, hrun, rfl, by omega, by omega, (dma_contiguous _ _ megabyteImage_ready _ hrun).1 _ List.mem_cons_self⟩

/-- The driver object takes 24 bytes of the first heap page; the queue of 6672 bytes after it reaches
into the second page, whose frame does not follow the first. -/
theorem virtQueue_not_contiguous : ∃ c p, DmaRun megabyteImage (fun _ => 0) (fun _ _ _ => True) c ∧
    c.dma = [(p, 6672)] ∧ ¬ Contiguous c.state (p, 6672) := by
  obtain ⟨s₀, hb, hbooted⟩ := boot_megabyte
  have hfl₀ := hbooted.freeList
  have hend₀ := hbooted.virtualAllocEnd
  rw [heapStart_eq] at hfl₀ hend₀
  obtain ⟨s₁, hk₁, h₁, hfl₁, hsame⟩ := hbooted.heap.kalloc_fits 0 (by decide) (by omega : s₀.freeList + (24 + 32) ≤ _)
  have hend₁ : s₁.virtualAllocEnd = s₀.virtualAllocEnd := hsame.virtualAllocEnd
  have hleft₁ : framesLeft megabyteImage s₁.mem = 32763 := by
    have hl := hsame.left hbooted.heap.tree.good
    rw [source_left, source_left, hbooted.used.framesLeft_eq, megabyteImage_reserved] at hl
    exact hl
  have hrun₁ : DmaRun megabyteImage (fun _ => 0) (fun _ _ _ => True)
      ⟨s₁, [(s₀.freeList + 16, 24)], [], {b | Broken {heapStart + 4096} s₀ b}⟩ :=
    ⟨s₀, hb, ReflTransGen.single (DmaStep.kalloc (by decide) hk₁)⟩
  have hpages : 6672 + 32 ≤ s₁.virtualAllocEnd - s₁.freeList + 4096 * 1 := by omega
  obtain ⟨p, s₂, hk₂⟩ := h₁.kalloc_isSome (by decide) hpages (by decide : 1 < 2) (by rw [source_left, hleft₁]; decide)
  have hrun₂ : DmaRun megabyteImage (fun _ => 0) (fun _ _ _ => True)
      ⟨s₂, [(p, 6672), (s₀.freeList + 16, 24)], [(p, 6672)],
        {b | Broken {b | Broken {heapStart + 4096} s₀ b} s₁ b}⟩ := by
    obtain ⟨s₀', hb', hrun⟩ := hrun₁
    exact ⟨s₀', hb', hrun.tail (DmaStep.kallocDma (by decide) trivial hk₂)⟩
  refine ⟨_, p, hrun₂, rfl, ?_⟩
  rw [(DmaInv.run megabyteImage_ready hrun₁).contiguous_kalloc (by decide) hk₂]
  intro hun
  refine hun (heapStart + 4096) ?_ ?_ ?_ ?_
  · rw [heapStart_eq]
  · change s₁.freeList + 16 < _
    rw [heapStart_eq]
    omega
  · change _ < s₁.freeList + 16 + 6672
    rw [heapStart_eq]
    omega
  · have hle₀ : heapStart + 4096 ≤ s₀.virtualAllocEnd := hbooted.virtualAllocEnd.ge
    rw [broken_of_le (by rw [hend₁]; exact hle₀)]
    exact (broken_of_le hle₀).mpr rfl

end Examples

end TetraOS.Memory
