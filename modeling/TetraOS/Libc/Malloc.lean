import TetraOS.Library.ByteMemory

/-! The heap of a program (tlibc/malloc.c). Allocation headers and free items lie over the same bytes; loads and stores
are those of the source, in its order. -/

namespace TetraOS.Libc

open Library.ByteMemory

abbrev pageSize : ℕ := 4096
abbrev magicString : ℕ := 0xDEADBEEF
abbrev allocationItemSize : ℕ := 32

structure Heap where
  mem : Memory
  firstItem : ℕ

namespace FreeItem

variable (m : Memory) (item : ℕ)

def size : ℕ := load m 8 item
def isLast : ℕ := load m 2 (item + 8)
def nextItem : ℕ := load m 8 (item + 16)

end FreeItem

def mallocInit (heapStart : ℕ) (m : Memory) : Heap :=
  let m := store m 8 heapStart pageSize
  let m := store m 8 (heapStart + 16) 0
  let m := store m 8 (heapStart + 16) 0
  let m := store m 2 (heapStart + 8) 1
  let m := store m 2 (heapStart + 10) 1
  ⟨m, heapStart⟩

def findItem (m : Memory) (size : ℕ) : ℕ → ℕ → Option ℕ
  | 0, _ => none
  | fuel + 1, current =>
    if FreeItem.size m current < size ∧ FreeItem.isLast m current = 0 then
      findItem m size fuel (FreeItem.nextItem m current)
    else some current

def malloc (fuel : ℕ) (h : Heap) (size : ℕ) : Option (ℕ × Heap) := do
  let newItem ← findItem h.mem size fuel h.firstItem
  let m := store h.mem 8 newItem magicString
  let m := store m 8 (newItem + 8) size
  let newFreeItem := (newItem + allocationItemSize + size) % 2 ^ 64
  -- the size of the free item is read where the magic string is by now
  let rest := (FreeItem.size m newItem + 2 ^ 64 - (size + allocationItemSize) % 2 ^ 64) % 2 ^ 64
  some ((newItem + allocationItemSize) % 2 ^ 64, ⟨store m 8 newFreeItem rest, newFreeItem⟩)

abbrev Block := ℕ × ℕ

inductive Runs (heapStart : ℕ) : Heap → List Block → Prop
  | init (m : Memory) : Runs heapStart (mallocInit heapStart m) []
  | malloc {h h' : Heap} {blocks : List Block} {fuel size p : ℕ} : Runs heapStart h blocks → size < 2 ^ 64 →
      malloc fuel h size = some (p, h') → Runs heapStart h' ((p, size) :: blocks)
  | write {h : Heap} {blocks : List Block} {b : Block} {x : ℕ} {v : UInt8} : Runs heapStart h blocks → b ∈ blocks →
      b.1 ≤ x → x < b.1 + b.2 → Runs heapStart { h with mem := Function.update h.mem x v } blocks

def taken (blocks : List Block) : ℕ := (blocks.map fun b => b.2 + allocationItemSize).sum

structure Accounted (heapStart : ℕ) (h : Heap) (blocks : List Block) : Prop where
  size : (FreeItem.size h.mem h.firstItem : ℤ) = pageSize - taken blocks
  inside : ∀ b ∈ blocks, heapStart ≤ b.1 ∧ b.1 + b.2 ≤ heapStart + pageSize

section Malloc

variable {h h' : Heap} {fuel size p heapStart : ℕ} {blocks : List Block}

lemma malloc_cases (hm : malloc fuel h size = some (p, h')) : ∃ item,
    findItem h.mem size fuel h.firstItem = some item ∧ p = (item + allocationItemSize) % 2 ^ 64 ∧
      h'.firstItem = (item + allocationItemSize + size) % 2 ^ 64 ∧
      h'.mem = store (store (store h.mem 8 item magicString) 8 (item + 8) size) 8 h'.firstItem
        ((magicString + 2 ^ 64 - (size + allocationItemSize) % 2 ^ 64) % 2 ^ 64) := by
  obtain ⟨item, hitem, hm⟩ := Option.bind_eq_some_iff.mp hm
  obtain ⟨rfl, rfl⟩ := Prod.mk.inj (Option.some.inj hm)
  have hmagic : FreeItem.size (store (store h.mem 8 item magicString) 8 (item + 8) size) item = magicString := by
    rw [FreeItem.size, load_store_disjoint (Or.inl le_rfl), load_store_of_lt (by decide)]
  refine ⟨item, hitem, rfl, rfl, ?_⟩
  dsimp only
  rw [hmagic]

lemma malloc_size (hm : malloc fuel h size = some (p, h')) :
    FreeItem.size h'.mem h'.firstItem = (magicString + 2 ^ 64 - (size + allocationItemSize) % 2 ^ 64) % 2 ^ 64 := by
  obtain ⟨item, _, _, _, hmem⟩ := malloc_cases hm
  rw [FreeItem.size, hmem]
  exact load_store_of_lt (lt_of_lt_of_le (Nat.mod_lt _ (by decide)) (by decide))

lemma mallocInit_isLast (heapStart : ℕ) (m : Memory) : FreeItem.isLast (mallocInit heapStart m).mem heapStart = 1 := by
  simp only [FreeItem.isLast, mallocInit]
  rw [load_store_disjoint (by omega), load_store_of_lt (by decide)]

lemma malloc_first (heapStart : ℕ) (m : Memory) (fuel size : ℕ) : ∃ h',
    malloc (fuel + 1) (mallocInit heapStart m) size = some ((heapStart + allocationItemSize) % 2 ^ 64, h') := by
  have hfind : findItem (mallocInit heapStart m).mem size (fuel + 1) (mallocInit heapStart m).firstItem =
    some heapStart := by
    rw [findItem, show (mallocInit heapStart m).firstItem = heapStart from rfl, mallocInit_isLast, if_neg (by simp)]
  exact ⟨_, by simp only [malloc, hfind, Option.bind_eq_bind, Option.bind_some]; rfl⟩

lemma not_accounted_malloc (hsize : size < 2 ^ 64) (hm : malloc fuel h size = some (p, h')) :
    ¬ Accounted heapStart h' ((p, size) :: blocks) := by
  intro hacc
  have hcount := hacc.size
  rw [malloc_size hm, taken, List.map_cons, List.sum_cons] at hcount
  simp only [magicString, allocationItemSize, pageSize] at hcount
  generalize (blocks.map fun b => b.2 + 32).sum = rest at hcount
  omega

end Malloc

structure Modest (heapStart : ℕ) (blocks : List Block) : Prop where
  small : ∀ b ∈ blocks, b.2 < 2 ^ 30
  room : heapStart + taken blocks + 2 ^ 31 ≤ 2 ^ 64

structure Follows (heapStart : ℕ) (h : Heap) (blocks : List Block) : Prop where
  first : h.firstItem = heapStart + taken blocks
  stops : FreeItem.isLast h.mem h.firstItem ≠ 0 ∨ 2 ^ 30 ≤ FreeItem.size h.mem h.firstItem
  below : ∀ b ∈ blocks, b.1 + b.2 ≤ h.firstItem

namespace Follows

variable {h h' : Heap} {fuel size p heapStart : ℕ} {blocks : List Block}

lemma init (heapStart : ℕ) (m : Memory) : Follows heapStart (mallocInit heapStart m) [] := by
  refine ⟨rfl, Or.inl ?_, by simp⟩
  rw [show (mallocInit heapStart m).firstItem = heapStart from rfl, mallocInit_isLast]
  decide

lemma findItem (hf : Follows heapStart h blocks) (hsize : size < 2 ^ 30) (fuel : ℕ) :
    findItem h.mem size (fuel + 1) h.firstItem = some h.firstItem := by
  rw [Libc.findItem, if_neg]
  rintro ⟨hlt, hlast⟩
  rcases hf.stops with hs | hs
  · exact hs hlast
  · omega

lemma malloc (hf : Follows heapStart h blocks) (hm : Modest heapStart ((p, size) :: blocks))
    (hk : malloc fuel h size = some (p, h')) :
    p = heapStart + taken blocks + allocationItemSize ∧ Follows heapStart h' ((p, size) :: blocks) := by
  have hsize := hm.small _ List.mem_cons_self
  have hroom := hm.room
  have hnew := malloc_size hk
  obtain ⟨item, hitem, hp, hfirst, _⟩ := malloc_cases hk
  cases fuel with
  | zero => cases hitem
  | succ fuel =>
    rw [hf.findItem hsize fuel, Option.some.injEq, hf.first] at hitem
    have htaken : taken ((p, size) :: blocks) = taken blocks + size + allocationItemSize := by
      rw [taken, List.map_cons, List.sum_cons, taken]
      omega
    simp only [allocationItemSize, magicString] at hp hfirst hnew htaken ⊢
    dsimp only at hsize
    have hp' : p = heapStart + taken blocks + 32 := by omega
    refine ⟨hp', ⟨by omega, Or.inr (by omega), fun b hb => ?_⟩⟩
    rcases List.mem_cons.mp hb with rfl | hb
    · dsimp only
      omega
    · have := hf.below b hb
      have := hf.first
      omega

lemma write (hf : Follows heapStart h blocks) {b : Block} (hb : b ∈ blocks) {x : ℕ} (hx : x < b.1 + b.2) (v : UInt8) :
    Follows heapStart { h with mem := Function.update h.mem x v } blocks := by
  have hbelow := hf.below b hb
  have hload : ∀ n a, h.firstItem ≤ a → load (Function.update h.mem x v) n a = load h.mem n a := fun n a ha =>
    load_congr fun y hy _ => Function.update_of_ne (by omega) _ _
  refine ⟨hf.first, ?_, hf.below⟩
  rw [FreeItem.isLast, FreeItem.size, hload _ _ (Nat.le_add_right _ _), hload _ _ le_rfl]
  exact hf.stops

end Follows

lemma Modest.of_cons {heapStart : ℕ} {b : Block} {blocks : List Block} (h : Modest heapStart (b :: blocks)) :
    Modest heapStart blocks := by
  refine ⟨fun c hc => h.small c (List.mem_cons_of_mem b hc), ?_⟩
  have hroom := h.room
  rw [taken, List.map_cons, List.sum_cons] at hroom
  rw [taken]
  omega

lemma Runs.follows {heapStart : ℕ} {h : Heap} {blocks : List Block} (hrun : Runs heapStart h blocks)
    (hm : Modest heapStart blocks) : Follows heapStart h blocks := by
  induction hrun with
  | init m => exact Follows.init heapStart m
  | malloc _ _ hk ih => exact ((ih hm.of_cons).malloc hm hk).2
  | write _ hb _ hx ih => exact (ih hm).write hb hx _

/-- Over every run: no call leaves the right size in the first item, and small requests are answered with the bytes
that follow the last block, in the page or not. -/
theorem malloc_never_accounted (heapStart : ℕ) (h : Heap) (blocks : List Block) (hrun : Runs heapStart h blocks)
    (size : ℕ) (hsize : size < 2 ^ 64) :
    (∀ fuel p h', malloc fuel h size = some (p, h') → ¬ Accounted heapStart h' ((p, size) :: blocks)) ∧
    (Modest heapStart blocks → size < 2 ^ 30 → ∀ fuel, ∃ h',
      malloc (fuel + 1) h size = some (heapStart + taken blocks + allocationItemSize, h')) := by
  refine ⟨fun fuel p h' hk => not_accounted_malloc hsize hk, fun hm hsmall fuel => ?_⟩
  have hf := hrun.follows hm
  have hroom := hm.room
  have hp : (h.firstItem + allocationItemSize) % 2 ^ 64 = heapStart + taken blocks + allocationItemSize := by
    rw [hf.first, Nat.mod_eq_of_lt]
    simp only [allocationItemSize]
    omega
  rw [← hp]
  exact ⟨_, by simp only [malloc, hf.findItem hsmall fuel, Option.bind_eq_bind, Option.bind_some]; rfl⟩

/-- A first request of a whole page is answered with a block that ends 32 bytes behind the page. -/
theorem malloc_never_accounted_page : ∃ h', malloc 1 (mallocInit 0x12000 fun _ => 0) 4096 = some (0x12020, h') ∧
    ¬ Accounted 0x12000 h' [(0x12020, 4096)] := by
  have hrun : Runs 0x12000 (mallocInit 0x12000 fun _ => 0) [] := Runs.init _
  obtain ⟨hnever, hanswer⟩ := malloc_never_accounted 0x12000 _ [] hrun 4096 (by decide)
  obtain ⟨h', hk⟩ := hanswer ⟨by simp, by decide⟩ (by decide) 0
  exact ⟨h', hk, hnever 1 _ h' hk⟩

theorem malloc_not_accounted_small : ∃ h', malloc 1 (mallocInit 0x12000 fun _ => 0) 8 = some (0x12020, h') ∧
    FreeItem.size h'.mem h'.firstItem = 0xDEADBEC7 ∧ ¬ Accounted 0x12000 h' [(0x12020, 8)] := by
  obtain ⟨h', hk⟩ := malloc_first 0x12000 (fun _ => 0) 0 8
  exact ⟨h', hk, malloc_size hk, not_accounted_malloc (by decide) hk⟩

end TetraOS.Libc
