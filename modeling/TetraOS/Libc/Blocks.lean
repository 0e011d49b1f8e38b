import TetraOS.Libc.Malloc
import TetraOS.Library.BumpBlocks
import Mathlib.Data.Set.Lattice
import Mathlib.Order.CompletePartialOrder
import Mathlib.Order.Interval.Set.Disjoint

/-! Where the blocks of a program's heap lie, however its callers fill them. -/

namespace TetraOS.Libc

open Library.ByteMemory

structure Fits (heapStart : ℕ) (blocks : List Block) : Prop where
  sum : taken blocks < 2 ^ 31
  room : heapStart + taken blocks + allocationItemSize ≤ 2 ^ 64

def Block.bytes (b : Block) : Set ℕ := Set.Ico b.1 (b.1 + b.2)

def Block.header (b : Block) : Set ℕ := Set.Ico (b.1 - allocationItemSize) b.1

def Heap.freeItem (h : Heap) : Set ℕ := Set.Ico h.firstItem (h.firstItem + allocationItemSize)

/-- Each block is where the sizes before it put it, and no block shares a byte with another one, with a header or with
the first item. -/
structure Placed (heapStart : ℕ) (h : Heap) (blocks : List Block) : Prop where
  address : ∀ later b earlier, blocks = later ++ b :: earlier → b.1 = heapStart + allocationItemSize + taken earlier
  apart : blocks.Pairwise fun b c => Disjoint (Block.bytes b) (Block.bytes c)
  headers : ∀ b ∈ blocks, ∀ c ∈ blocks, Disjoint (Block.bytes b) (Block.header c)
  freeItem : ∀ b ∈ blocks, Disjoint (Block.bytes b) h.freeItem

/-- The item behind the blocks is the last one, or has a size no request reaches: what its links are does not matter. -/
structure Filled (heapStart : ℕ) (h : Heap) (blocks : List Block) : Prop where
  first : h.firstItem = heapStart + taken blocks
  consecutive : Library.BumpBlocks.Consecutive heapStart allocationItemSize blocks
  stops : FreeItem.isLast h.mem h.firstItem ≠ 0 ∨ 2 ^ 31 ≤ taken blocks + FreeItem.size h.mem h.firstItem

lemma taken_eq (blocks : List Block) : taken blocks = Library.BumpBlocks.taken allocationItemSize blocks := rfl

lemma taken_cons (b : Block) (blocks : List Block) : taken (b :: blocks) = b.2 + allocationItemSize + taken blocks :=
  Library.BumpBlocks.taken_cons b blocks

lemma Fits.of_cons {heapStart : ℕ} {b : Block} {blocks : List Block} (h : Fits heapStart (b :: blocks)) :
    Fits heapStart blocks := by
  have hsum := h.sum
  have hroom := h.room
  rw [taken_cons] at hsum hroom
  exact ⟨by omega, by omega⟩

namespace Filled

variable {h h' : Heap} {fuel size p heapStart : ℕ} {blocks : List Block}

lemma init (heapStart : ℕ) (m : Memory) : Filled heapStart (mallocInit heapStart m) [] := by
  refine ⟨rfl, trivial, Or.inl ?_⟩
  rw [show (mallocInit heapStart m).firstItem = heapStart from rfl, mallocInit_isLast]
  decide

lemma findItem (hf : Filled heapStart h blocks) (hsize : taken blocks + (size + allocationItemSize) < 2 ^ 31)
    (fuel : ℕ) : findItem h.mem size (fuel + 1) h.firstItem = some h.firstItem := by
  rw [Libc.findItem, if_neg]
  rintro ⟨hlt, hlast⟩
  rcases hf.stops with hs | hs
  · exact hs hlast
  · omega

lemma malloc (hf : Filled heapStart h blocks) (hfits : Fits heapStart ((p, size) :: blocks))
    (hk : malloc fuel h size = some (p, h')) : Filled heapStart h' ((p, size) :: blocks) := by
  have hsum := hfits.sum
  have hroom := hfits.room
  have hnew := malloc_size hk
  obtain ⟨item, hitem, hp, hfirst, _⟩ := malloc_cases hk
  rw [taken_cons] at hsum hroom
  dsimp only at hsum hroom
  cases fuel with
  | zero => cases hitem
  | succ fuel =>
    rw [hf.findItem (by omega) fuel, Option.some.injEq, hf.first] at hitem
    simp only [allocationItemSize, magicString] at hp hfirst hnew hsum hroom
    refine ⟨?_, ⟨?_, hf.consecutive⟩, Or.inr ?_⟩
    · rw [taken_cons, hfirst, ← hitem, Nat.mod_eq_of_lt (by omega)]
      simp only [allocationItemSize]
      omega
    · rw [← taken_eq, hp, ← hitem, Nat.mod_eq_of_lt (by omega)]
      simp only [allocationItemSize]
      omega
    · rw [taken_cons, hnew]
      simp only [allocationItemSize]
      omega

lemma below (hf : Filled heapStart h blocks) {b : Block} (hb : b ∈ blocks) : b.1 + b.2 ≤ h.firstItem := by
  rw [hf.first, taken_eq]
  exact (hf.consecutive.apart.1 b hb).2

lemma write (hf : Filled heapStart h blocks) {b : Block} (hb : b ∈ blocks) {x : ℕ} (hx : x < b.1 + b.2) (v : UInt8) :
    Filled heapStart { h with mem := Function.update h.mem x v } blocks := by
  have hbelow := hf.below hb
  have hload : ∀ n a, h.firstItem ≤ a → load (Function.update h.mem x v) n a = load h.mem n a := fun n a ha =>
    load_congr fun y hy _ => Function.update_of_ne (by omega) _ _
  refine ⟨hf.first, hf.consecutive, ?_⟩
  rw [FreeItem.isLast, FreeItem.size, hload _ _ (Nat.le_add_right _ _), hload _ _ le_rfl]
  exact hf.stops

lemma placed (hf : Filled heapStart h blocks) : Placed heapStart h blocks := by
  refine ⟨fun later b earlier hb => hf.consecutive.address hb, hf.consecutive.apart.2.imp fun hbc => ?_,
    fun b hb c hc => ?_, fun b hb => ?_⟩
  · rw [Set.disjoint_left]
    rintro x ⟨h₁, _⟩ ⟨_, h₂⟩
    omega
  · rw [Set.disjoint_left]
    rintro x ⟨h₁, h₂⟩ ⟨h₃, h₄⟩
    by_cases heq : b = c
    · subst heq
      omega
    · rcases hf.consecutive.apart_of_ne hb hc heq with hbc | hcb <;> omega
  · have hbelow := hf.below hb
    rw [Set.disjoint_left]
    rintro x ⟨_, h₁⟩ ⟨h₂, _⟩
    omega

end Filled

lemma Runs.filled {heapStart : ℕ} {h : Heap} {blocks : List Block} (hrun : Runs heapStart h blocks)
    (hfits : Fits heapStart blocks) : Filled heapStart h blocks := by
  induction hrun with
  | init m => exact Filled.init heapStart m
  | malloc _ _ hk ih => exact (ih hfits.of_cons).malloc hfits hk
  | write _ hb _ hx ih => exact (ih hfits).write hb hx _

/-- Over every run: the blocks are apart, and the next call takes the first item without a look at its links. -/
theorem runs_placed (heapStart : ℕ) (h : Heap) (blocks : List Block) (hrun : Runs heapStart h blocks)
    (hfits : Fits heapStart blocks) :
    Placed heapStart h blocks ∧
    ∀ size p, Fits heapStart ((p, size) :: blocks) → ∀ fuel,
      findItem h.mem size (fuel + 1) h.firstItem = some h.firstItem ∧
      ∃ h', malloc (fuel + 1) h size = some (heapStart + allocationItemSize + taken blocks, h') := by
  have hf := hrun.filled hfits
  refine ⟨hf.placed, fun size p hnext fuel => ?_⟩
  have hsum := hnext.sum
  have hroom := hnext.room
  rw [taken_cons] at hsum hroom
  have hfind : findItem h.mem size (fuel + 1) h.firstItem = some h.firstItem :=
    hf.findItem (by rw [Nat.add_comm]; exact hsum) fuel
  have hp : (h.firstItem + allocationItemSize) % 2 ^ 64 = heapStart + allocationItemSize + taken blocks := by
    simp only [allocationItemSize] at hroom ⊢
    rw [hf.first, Nat.mod_eq_of_lt (by omega)]
    omega
  rw [← hp]
  exact ⟨hfind, _, by simp only [malloc, hfind, Option.bind_eq_bind, Option.bind_some]; rfl⟩

/-- The buffer of `printf`, filled by its caller, and a block behind it. -/
theorem runs_placed_buffer : ∃ h, Runs 0x12000 h [(0x12108, 8), (0x12020, 200)] ∧
    Placed 0x12000 h [(0x12108, 8), (0x12020, 200)] := by
  have hrun : Runs 0x12000 (mallocInit 0x12000 fun _ => 0) [] := Runs.init _
  obtain ⟨_, hfirst⟩ := runs_placed 0x12000 _ [] hrun ⟨by decide, by decide⟩
  obtain ⟨_, h₁, hk₁⟩ := hfirst 200 0 ⟨by decide, by decide⟩ 0
  have hrun₁ := (hrun.malloc (by decide) hk₁).write List.mem_cons_self (x := 0x120E7) (v := 255) (by decide) (by decide)
  obtain ⟨_, hsecond⟩ := runs_placed 0x12000 _ _ hrun₁ ⟨by decide, by decide⟩
  obtain ⟨_, h₂, hk₂⟩ := hsecond 8 0 ⟨by decide, by decide⟩ 0
  have hrun₂ := hrun₁.malloc (by decide) hk₂
  exact ⟨h₂, hrun₂, (runs_placed 0x12000 h₂ _ hrun₂ ⟨by decide, by decide⟩).1⟩

end TetraOS.Libc
