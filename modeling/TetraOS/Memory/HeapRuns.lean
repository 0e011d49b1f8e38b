import TetraOS.Memory.Boot
import Mathlib.Data.Set.Lattice
import Mathlib.Logic.Relation
import Mathlib.Order.CompletePartialOrder
import Mathlib.Order.Interval.Set.Disjoint

/-! Runs of the kernel heap: any order of `kalloc` calls and of writes into the blocks handed out. -/

namespace TetraOS.Memory

open Library.ByteMemory Library.TableTree VirtualPage FreeSpace PhysicalAllocator Relation

abbrev Block := ℕ × ℕ

namespace Block

def range (b : Block) : Set ℕ := Set.Ico b.1 (b.1 + b.2)
def header (b : Block) : Set ℕ := Set.Ico (b.1 - 16) b.1

lemma mem_range {address size x : ℕ} : x ∈ range (address, size) ↔ address ≤ x ∧ x < address + size := Iff.rfl

end Block

inductive HeapStep (img : Image) : State Frames × List Block → State Frames × List Block → Prop
  | kalloc {s s' blocks fuel size p} : size < 2 ^ 62 →
      kalloc (kallocFrame (reserved img)) fuel s size = some (p, s') →
      HeapStep img (s, blocks) (s', (p, size) :: blocks)
  | write {s s' blocks b va x} : b ∈ blocks → va ∈ Block.range b → storeByte s va x = some s' →
      HeapStep img (s, blocks) (s', blocks)

def HeapRun (img : Image) (m : Memory) (s : State Frames) (blocks : List Block) : Prop :=
  ∃ s₀, boot img m = some s₀ ∧ ReflTransGen (HeapStep img) (s₀, []) (s, blocks)

structure Blocks (s : State Frames) (blocks : List Block) : Prop where
  above : ∀ b ∈ blocks, heapStart + 16 ≤ b.1
  below : ∀ b ∈ blocks, b.1 + b.2 ≤ s.freeList
  ordered : blocks.Pairwise fun b c => c.1 + c.2 + 16 ≤ b.1

/-- All pages are owned and readable: nobody but the heap maps pages in these runs. -/
def Everywhere : List (Fin 512) → Prop := fun _ => True

section Below

variable {blocks : List Block}

lemma below_cons {start end' size : ℕ} (hstart : heapStart ≤ start)
    (h : ∀ b ∈ blocks, heapStart ≤ b.1 ∧ b.1 + b.2 ≤ start) (hend : end' = start + 16 + size) :
    ∀ b ∈ (start + 16, size) :: blocks, heapStart ≤ b.1 ∧ b.1 + b.2 ≤ end' := by
  intro b hb
  rcases List.mem_cons.mp hb with rfl | hb
  · exact ⟨hstart.trans (Nat.le_add_right _ _), hend.ge⟩
  · have := h b hb
    omega

lemma HeapOk.before_freeList {α : Type} {S : FrameSource α} {L K : List (Fin 512) → Prop} {s : State α}
    (h : HeapOk S L K s) (hbelow : ∀ b ∈ blocks, heapStart ≤ b.1 ∧ b.1 + b.2 ≤ s.freeList) {va : ℕ}
    (hva : (∃ b ∈ blocks, va ∈ Block.range b) ∨ va < 2 ^ 47) : Outside va ∧ va < s.freeList := by
  have hst := h.start
  have hsp := h.space
  have hlow := lower_le_heapStart
  rcases hva with ⟨b, hb, h₁, h₂⟩ | hva
  · have := hbelow b hb
    exact ⟨(h.inHeap (by omega) (by omega)).outside, by omega⟩
  · exact ⟨outside_of_lower hva, by omega⟩

end Below

structure HeapInv (img : Image) (hr : Room img) (s : State Frames) (blocks : List Block) : Prop where
  heap : HeapOk (source img hr) Everywhere Everywhere s
  blocks : Blocks s blocks

namespace HeapInv

variable {img : Image} {hr : Room img} {s s' : State Frames} {blocks : List Block} {fuel size p : ℕ}
    (h : HeapInv img hr s blocks)
include h

lemma kalloc (hsize : size + 32 < 2 ^ 64) (hk : kalloc (kallocFrame (reserved img)) fuel s size = some (p, s')) :
    HeapInv img hr s' ((p, size) :: blocks) := by
  obtain ⟨h', rfl, hfl, _⟩ := h.heap.kalloc hsize hk
  have hst := h.heap.start
  refine ⟨h', ⟨?_, ?_, ?_⟩⟩
  · intro b hb
    rcases List.mem_cons.mp hb with rfl | hb
    · exact Nat.add_le_add_right hst 16
    · exact h.blocks.above b hb
  · intro b hb
    rcases List.mem_cons.mp hb with rfl | hb
    · exact hfl.ge
    · have := h.blocks.below b hb
      omega
  · refine List.pairwise_cons.mpr ⟨fun b hb => ?_, h.blocks.ordered⟩
    exact Nat.add_le_add_right (h.blocks.below b hb) 16

lemma mem_range {b : Block} (hb : b ∈ blocks) {x : ℕ} (hx : x ∈ b.range) :
    heapStart ≤ x ∧ x < s.freeList ∧ x < s.virtualAllocEnd := by
  have hlo := h.blocks.above b hb
  have hhi := h.blocks.below b hb
  have hsp := h.heap.space
  obtain ⟨h₁, h₂⟩ := hx
  omega

lemma write {b : Block} (hb : b ∈ blocks) {va : ℕ} (hva : va ∈ b.range) {x : UInt8}
    (hw : storeByte s va x = some s') : HeapInv img hr s' blocks := by
  obtain ⟨h₁, h₂, h₃⟩ := h.mem_range hb hva
  obtain ⟨h', hsame, _⟩ := h.heap.storeByte (h.heap.inHeap h₁ h₃).outside trivial (Or.inl h₂) hw
  exact ⟨h', h.blocks.above, by rw [hsame.freeList]; exact h.blocks.below, h.blocks.ordered⟩

lemma memcpy {b : Block} (hb : b ∈ blocks) {src n : ℕ} (hn : n ≤ b.2) (hc : memcpy s b.1 src n = some s') :
    HeapInv img hr s' blocks := by
  induction n generalizing s' with
  | zero =>
    obtain rfl := Option.some.inj hc
    exact h
  | succ n ih =>
    obtain ⟨s₁, h₁, hc⟩ := Option.bind_eq_some_iff.mp hc
    obtain ⟨x, _, hc⟩ := Option.bind_eq_some_iff.mp hc
    exact (ih (by omega) h₁).write hb ⟨Nat.le_add_right _ _, by omega⟩ hc

lemma kalloc_keeps (hsize : size < 2 ^ 62)
    (hk : Memory.kalloc (kallocFrame (reserved img)) fuel s size = some (p, s')) {b : Block} (hb : b ∈ blocks)
    {x : ℕ} (hx : x ∈ b.range) : loadByte s' x = loadByte s x ∧ (loadByte s x).isSome := by
  obtain ⟨h', hp, hfl, hkeep⟩ := h.heap.kalloc (by omega) hk
  obtain ⟨h₁, h₂, h₃⟩ := h.mem_range hb hx
  have hin := h.heap.inHeap h₁ h₃
  have hm := h.heap.mapped x h₁ h₃
  have hle := hkeep.end_le
  rw [loadByte_eq h.heap.tree (h.heap.usable hin) hm,
    loadByte_eq h'.tree (h'.usable hin) (h'.mapped x h₁ (by omega)),
    hkeep.view x hin.outside hin.canonical trivial (h.heap.not_newPage h'.end_le h₁ h₃) (by omega)]
  exact ⟨rfl, rfl⟩

omit h in
lemma run {m : Memory} (hready : Ready img m) (hrun : HeapRun img m s blocks) : HeapInv img hready.room s blocks := by
  obtain ⟨s₀, hb, hrun⟩ := hrun
  have hinit : HeapInv img hready.room s₀ [] := by
    have hbooted := hready.boot_spec (L := Everywhere) (K := Everywhere) (fun _ _ => trivial) (fun _ _ => trivial) hb
    exact ⟨hbooted.heap, fun _ hb => absurd hb List.not_mem_nil, fun _ hb => absurd hb List.not_mem_nil,
      List.Pairwise.nil⟩
  suffices hh : ∀ c, ReflTransGen (HeapStep img) (s₀, []) c → HeapInv img hready.room c.1 c.2 from hh _ hrun
  intro c hc
  induction hc with
  | refl => exact hinit
  | tail _ hs ih =>
    cases hs with
    | kalloc hsize hk => exact ih.kalloc (by omega) hk
    | write hb hva hw => exact ih.write hb hva hw

end HeapInv

/-- The free list is one last node that reaches to the end of the heap. -/
structure SingleNode (s : State Frames) : Prop where
  last : isLast s s.freeList = some true
  size : ∃ size, getSize s s.freeList = some size ∧ 16 ≤ size ∧ s.freeList + size = s.virtualAllocEnd
  search : ∀ fuel size, searchList s size (fuel + 1) s.freeList = some s.freeList

structure Separate (s : State Frames) (blocks : List Block) : Prop where
  disjoint : blocks.Pairwise fun b c => Disjoint b.range c.range
  headers : ∀ b ∈ blocks, ∀ c ∈ blocks, Disjoint b.range c.header
  node : ∀ b ∈ blocks, Disjoint b.range (Set.Ico s.freeList (s.freeList + 16))
  inside : ∀ b ∈ blocks, b.range ⊆ Set.Ico heapStart s.virtualAllocEnd

section Results

variable {img : Image} {hr : Room img} {s : State Frames} {blocks : List Block}

lemma HeapInv.singleNode (h : HeapInv img hr s blocks) : SingleNode s := by
  have hsp := h.heap.space
  exact ⟨h.heap.isLast_freeList, ⟨_, h.heap.getSize_freeList, by omega, by omega⟩, h.heap.searchList_freeList⟩

lemma Blocks.headers (h : Blocks s blocks) : ∀ b ∈ blocks, ∀ c ∈ blocks, Disjoint b.range c.header := by
  have hof : ∀ b c : Block, b.1 + b.2 + 16 ≤ c.1 ∨ c.1 ≤ b.1 → Disjoint b.range c.header := by
    intro b c hbc
    rw [Block.range, Block.header, Set.disjoint_left]
    rintro x ⟨h₁, h₂⟩ ⟨h₃, h₄⟩
    omega
  have hself : ∀ b ∈ blocks, Disjoint b.range (Block.header b) := fun b _ => hof b b (Or.inr le_rfl)
  have hdown : blocks.Pairwise fun b c => Disjoint b.range c.header :=
    h.ordered.imp fun {b c} hbc => hof b c (Or.inr (by omega))
  have hup : blocks.Pairwise (flip fun b c : Block => Disjoint b.range c.header) :=
    h.ordered.imp fun {b c} hbc => hof c b (Or.inl hbc)
  exact fun b hb c hc => List.Pairwise.forall_of_forall_of_flip hself hdown hup hb hc

lemma HeapInv.separate (h : HeapInv img hr s blocks) : Separate s blocks := by
  have hsp := h.heap.space
  refine ⟨?_, h.blocks.headers, ?_, ?_⟩
  · refine h.blocks.ordered.imp fun {b c} hbc => ?_
    rw [Block.range, Block.range, Set.disjoint_left]
    rintro x ⟨h₁, h₂⟩ ⟨h₃, h₄⟩
    omega
  · intro b hb
    rw [Set.disjoint_left]
    rintro x hx ⟨h₃, _⟩
    have := (h.mem_range hb hx).2.1
    omega
  · intro b hb x hx
    obtain ⟨h₁, _, h₃⟩ := h.mem_range hb hx
    exact ⟨h₁, h₃⟩

lemma HeapInv.translate_isSome (h : HeapInv img hr s blocks) :
    ∀ va, heapStart ≤ va → va < s.virtualAllocEnd → (translate s va).isSome := by
  intro va hva hva'
  have hu := h.heap.usable (h.heap.inHeap hva hva')
  obtain ⟨n, hw⟩ := Option.isSome_iff_exists.mp (h.heap.mapped va hva hva')
  rw [translate_eq_walk h.heap.tree hu.outside hu.canonical hu.leaf, hw]
  rfl

end Results

/-- The kernel heap over every run: one free node, every page mapped, blocks apart from each other and
from the bookkeeping, and no later call changes what is in them. -/
theorem kalloc_runs (img : Image) (m : Memory) (hready : Ready img m) (s : State Frames) (blocks : List Block)
    (hrun : HeapRun img m s blocks) :
    SingleNode s ∧ (∀ va, heapStart ≤ va → va < s.virtualAllocEnd → (translate s va).isSome) ∧ Separate s blocks ∧
    (∀ fuel size p s', size < 2 ^ 62 → kalloc (kallocFrame (reserved img)) fuel s size = some (p, s') →
      ∀ b ∈ blocks, ∀ x ∈ b.range, loadByte s' x = loadByte s x ∧ (loadByte s x).isSome) ∧
    (∀ fuel size pages, size < 2 ^ 62 → s.freeList + size + 32 ≤ s.virtualAllocEnd + 4096 * pages → pages < fuel →
      4 * pages ≤ framesLeft img s.mem → ∃ p s', kalloc (kallocFrame (reserved img)) fuel s size = some (p, s')) := by
  have h := HeapInv.run hready hrun
  refine ⟨h.singleNode, h.translate_isSome, h.separate, ?_, ?_⟩
  · exact fun fuel size p s' hsize hk b hb x hx => h.kalloc_keeps hsize hk hb hx
  · intro fuel size pages hsize hpages hfuel hleft
    have hsp := h.heap.space
    exact h.heap.kalloc_isSome (by omega) (by omega) hfuel hleft

/-- A block beyond the first heap page, a byte of it set by its owner, and a second block after it. -/
theorem kalloc_runs_grown : ∃ s p q, HeapRun megabyteImage (fun _ => 0) s [(q, 100), (p, 5000)] ∧
    heapStart + 4096 < s.virtualAllocEnd ∧ SingleNode s ∧ Separate s [(q, 100), (p, 5000)] ∧
    loadByte s p = some 7 := by
  obtain ⟨s₀, hb⟩ := megabyteImage_ready.boot_isSome (by rw [megabyteImage_reserved]; decide)
  have hbooted := megabyteImage_ready.boot_spec (L := Everywhere) (K := Everywhere)
    (fun _ _ => trivial) (fun _ _ => trivial) hb
  have hfl₀ := hbooted.freeList
  have hend₀ := hbooted.virtualAllocEnd
  have hleft : framesLeft megabyteImage s₀.mem = 32763 := by
    rw [hbooted.used.framesLeft_eq, megabyteImage_reserved]
  have hrun₀ : HeapRun megabyteImage (fun _ => 0) s₀ [] := ⟨s₀, hb, ReflTransGen.refl⟩
  obtain ⟨p, s₁, hk₁⟩ := (kalloc_runs _ _ megabyteImage_ready s₀ [] hrun₀).2.2.2.2 2 5000 1 (by decide)
    (by omega) (by decide) (by omega)
  obtain ⟨h₁, hp, hfl₁, _⟩ := hbooted.heap.kalloc (by decide) hk₁
  have hsp₁ := h₁.space
  have hal₁ := h₁.aligned
  have hal : heapStart % 4096 = 0 := by rw [heapStart_eq]
  have hin : InHeap p := h₁.inHeap (by omega) (by omega)
  have hmapped := h₁.mapped p (by omega) (by omega)
  obtain ⟨s₂, hw, ht₂, hsame, hview⟩ := storeByte_eq h₁.tree (b := 7) (h₁.usable hin) hmapped
  have hrun₂ : HeapRun megabyteImage (fun _ => 0) s₂ [(p, 5000)] :=
    ⟨s₀, hb, .tail (.single (.kalloc (by decide) hk₁))
      (.write List.mem_cons_self (Block.mem_range.mpr ⟨le_rfl, by omega⟩) hw)⟩
  have hbyte : loadByte s₂ p = some 7 := by
    rw [loadByte_eq ht₂ (h₁.usable hin) ((hsame.mapped hin.outside).mpr hmapped),
      hview p hin.outside hin.canonical trivial, if_pos rfl]
  have hfl₂ := hsame.freeList
  have hend₂ := hsame.virtualAllocEnd
  obtain ⟨_, _, _, hkeep, htotal⟩ := kalloc_runs _ _ megabyteImage_ready s₂ _ hrun₂
  obtain ⟨q, s₃, hk₃⟩ := htotal 1 100 0 (by decide) (by omega) (by decide) (Nat.zero_le _)
  have hrun₃ : HeapRun megabyteImage (fun _ => 0) s₃ [(q, 100), (p, 5000)] := by
    obtain ⟨s₀', hb', hrun⟩ := hrun₂
    exact ⟨s₀', hb', hrun.tail (.kalloc (by decide) hk₃)⟩
  obtain ⟨hnode, _, hsep, _⟩ := kalloc_runs _ _ megabyteImage_ready s₃ _ hrun₃
  have hx : p ∈ Block.range (p, 5000) := Block.mem_range.mpr ⟨le_rfl, by omega⟩
  refine ⟨s₃, p, q, hrun₃, ?_, hnode, hsep, ?_⟩
  · have hlast := (hsep.inside (p, 5000) (List.mem_cons_of_mem _ List.mem_cons_self)
      (Block.mem_range.mpr ⟨by omega, by omega⟩ : p + 4999 ∈ Block.range (p, 5000))).2
    omega
  · rw [(hkeep 1 100 q s₃ (by decide) hk₃ _ List.mem_cons_self p hx).1, hbyte]

end TetraOS.Memory
