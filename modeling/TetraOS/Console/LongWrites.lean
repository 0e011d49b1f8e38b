import TetraOS.Memory.HeapGrowth
import TetraOS.Processes.BlockLayout
import TetraOS.Console.Write

/-! The lengths that a program passes to `write`. The handler tests none of them, and adds one before it asks for
memory. -/

namespace TetraOS.Console

open Memory Processes Library.ByteMemory FreeSpace PhysicalAllocator

structure HeapIntact (s : State Frames) (blocks : List Block) : Prop where
  node : SingleNode s
  mapped : ∀ va, heapStart ≤ va → va < s.virtualAllocEnd → (translate s va).isSome
  separate : Separate s blocks

def Refuses (img : Image) (s : State Frames) (params : SyscallParameters) : Prop :=
  ∃ fuel others logLevel out, handleSyscall (reserved img) fuel others logLevel params s = some (s, out)

/-- The handler gets a block for the bytes and the zero behind them, and the heap is intact with it, also after each
byte that is copied and after the handler. -/
def Obtains (img : Image) (s : State Frames) (blocks : List Block) (params : SyscallParameters) : Prop :=
  ∃ fuel p s₁, kalloc (kallocFrame (reserved img)) fuel s ((params.a2 + 1) % 2 ^ 64) = some (p, s₁) ∧
    HeapIntact s₁ ((p, params.a2 + 1) :: blocks) ∧
    (∀ n ≤ params.a2, ∀ s₂, memcpy s₁ p params.a1 n = some s₂ → HeapIntact s₂ ((p, params.a2 + 1) :: blocks)) ∧
    ∀ fuel others logLevel s' out, handleSyscall (reserved img) fuel others logLevel params s =
      some (s', out) → HeapIntact s' ((p, params.a2 + 1) :: blocks)

def WriteSafe (img : Image) (s : State Frames) (blocks : List Block) (params : SyscallParameters) : Prop :=
  Refuses img s params ∨ Obtains img s blocks params

section Copying

variable {α : Type} {s s' : State α} {dest src n : ℕ}

lemma memcpy_freeList (h : memcpy s dest src n = some s') : s'.freeList = s.freeList := by
  induction n generalizing s' with
  | zero => rw [← Option.some.inj h]
  | succ n ih =>
    obtain ⟨s₁, h₁, h⟩ := Option.bind_eq_some_iff.mp h
    obtain ⟨b, _, h⟩ := Option.bind_eq_some_iff.mp h
    obtain ⟨x, _, rfl⟩ := Option.map_eq_some_iff.mp h
    have hkept := ih h₁
    exact hkept

lemma memcpy_eq_none_of_hole {i : ℕ} (hi : i < n) (hhole : ¬ Canonical (dest + i)) : memcpy s dest src n = none := by
  have hstore : ∀ (t : State α) b, storeByte t (dest + i) b = none := by
    intro t b
    rw [storeByte, Memory.translate, if_neg hhole]
    rfl
  induction n with
  | zero => omega
  | succ n ih =>
    rcases Nat.lt_succ_iff_lt_or_eq.mp hi with hi | rfl
    · rw [memcpy, ih hi]
      rfl
    · rw [memcpy]
      cases memcpy s dest src i with
      | none => rfl
      | some t => simp only [Option.bind_eq_bind, hstore, Option.bind_fun_none]

end Copying

section Lengths

variable {img : Image} {hr : Room img} {s s' : State Frames} {blocks : List Block} {params : SyscallParameters}
  {fuel : ℕ}

lemma intact_of_heapInv (h : HeapInv img hr s blocks) : HeapIntact s blocks :=
  ⟨h.singleNode, h.translate_isSome, h.separate⟩

lemma splitBlock_lt {current size p : ℕ} (hs : splitBlock s current size = some (p, s')) :
    p < 2 ^ 64 ∧ s'.freeList < 2 ^ 64 := by
  obtain ⟨_, _, hs⟩ := Option.bind_eq_some_iff.mp hs
  obtain ⟨_, _, hs⟩ := Option.bind_eq_some_iff.mp hs
  obtain ⟨_, _, hs⟩ := Option.bind_eq_some_iff.mp hs
  obtain ⟨_, _, hs⟩ := Option.bind_eq_some_iff.mp hs
  obtain ⟨_, _, hs⟩ := Option.bind_eq_some_iff.mp hs
  obtain ⟨rfl, rfl⟩ := Prod.mk.inj (Option.some.inj hs)
  exact ⟨Nat.mod_lt _ (by norm_num), Nat.mod_lt _ (by norm_num)⟩

lemma kalloc_lt {size p : ℕ} (hk : kalloc (kallocFrame (reserved img)) fuel s size = some (p, s')) :
    p < 2 ^ 64 ∧ s'.freeList < 2 ^ 64 := by
  obtain ⟨_, _, hk⟩ := Option.bind_eq_some_iff.mp hk
  obtain ⟨_, _, hk⟩ := Option.bind_eq_some_iff.mp hk
  obtain ⟨_, _, hk⟩ := Option.bind_eq_some_iff.mp hk
  split at hk
  · obtain ⟨_, _, hk⟩ := Option.bind_eq_some_iff.mp hk
    exact splitBlock_lt hk
  · exact splitBlock_lt hk

lemma loadBytes_lt {n a v : ℕ} (h : loadBytes s n a = some v) : v < 256 ^ n := by
  induction n generalizing a v with
  | zero =>
    obtain rfl := Option.some.inj h
    norm_num
  | succ n ih =>
    obtain ⟨b, _, h⟩ := Option.bind_eq_some_iff.mp h
    obtain ⟨rest, hrest, h⟩ := Option.bind_eq_some_iff.mp h
    obtain rfl := Option.some.inj h
    have hb : b.toNat < 256 := b.toNat_lt
    have := ih hrest
    rw [pow_succ]
    omega

lemma handleSyscall_parts (hwrite : params.a7 = 1)
    {others : SyscallParameters → State Frames → Option (State Frames × List UInt8)} {logLevel : ℕ} {out : List UInt8}
    (hs : handleSyscall (reserved img) fuel others logLevel params s = some (s', out)) :
    ∃ p s₁ s₂, kalloc (kallocFrame (reserved img)) fuel s ((params.a2 + 1) % 2 ^ 64) = some (p, s₁) ∧
      memcpy s₁ p params.a1 params.a2 = some s₂ ∧ storeByte s₂ ((p + params.a2) % 2 ^ 64) 0 = some s' := by
  obtain ⟨line, _, hs⟩ := Option.bind_eq_some_iff.mp hs
  rw [if_pos hwrite] at hs
  obtain ⟨⟨t, text⟩, ht, heq⟩ := Option.bind_eq_some_iff.mp hs
  obtain ⟨rfl, _⟩ := Prod.mk.inj (Option.some.inj heq)
  obtain ⟨lines, _, ht⟩ := Option.bind_eq_some_iff.mp ht
  obtain ⟨⟨p, s₁⟩, hk, ht⟩ := Option.bind_eq_some_iff.mp ht
  obtain ⟨s₂, hc, ht⟩ := Option.bind_eq_some_iff.mp ht
  obtain ⟨s₃, hw, ht⟩ := Option.bind_eq_some_iff.mp ht
  obtain ⟨_, _, ht⟩ := Option.bind_eq_some_iff.mp ht
  obtain ⟨rfl, _⟩ := Prod.mk.inj (Option.some.inj ht)
  exact ⟨p, s₁, s₂, hk, hc, hw⟩

lemma memcpy_long {α : Type} {s : State α} {dest src n : ℕ} (hdest : dest < 2 ^ 64) (hn : 2 ^ 64 ≤ n + 33) :
    memcpy s dest src n = none := by
  by_cases hlow : dest < 2 ^ 47
  · refine memcpy_eq_none_of_hole (i := 2 ^ 47 - dest) (by omega) ?_
    rw [Canonical]
    omega
  · by_cases hhigh : 2 ^ 64 - 2 ^ 47 ≤ dest
    · refine memcpy_eq_none_of_hole (i := 2 ^ 64 + 2 ^ 47 - dest) (by omega) ?_
      rw [Canonical]
      omega
    · refine memcpy_eq_none_of_hole (i := 0) (by omega) ?_
      rw [Canonical]
      omega

lemma not_obtains (ha2 : 2 ^ 64 ≤ params.a2 + 33) : ¬ Obtains img s blocks params := by
  rintro ⟨fuel, p, s₁, hk, hintact, _, _⟩
  have hlt := (kalloc_lt hk).2
  obtain ⟨size, hsize, _, hend⟩ := hintact.node.size
  obtain ⟨status, hstatus, rfl⟩ := Option.map_eq_some_iff.mp hsize
  have hstatus := loadBytes_lt hstatus
  have hin := hintact.separate.inside _ List.mem_cons_self
  have hlast : p + params.a2 ∈ Block.range (p, params.a2 + 1) := ⟨Nat.le_add_right _ _, by dsimp only; omega⟩
  have hfirst : p ∈ Block.range (p, params.a2 + 1) := ⟨le_rfl, by dsimp only; omega⟩
  have hlo := (hin hfirst).1
  have hhi := (hin hlast).2
  rw [heapStart_eq] at hlo
  rw [Nat.shiftRight_eq_div_pow] at hend
  omega

lemma not_refuses (h : HeapInv img hr s blocks) (hwrite : params.a7 = 1) (ha2 : params.a2 < 2 ^ 64) :
    ¬ Refuses img s params := by
  rintro ⟨fuel, others, logLevel, out, hs⟩
  obtain ⟨p, s₁, s₂, hk, hc, hw⟩ := handleSyscall_parts hwrite hs
  by_cases hwrap : 2 ^ 64 ≤ params.a2 + 33
  · rw [memcpy_long (kalloc_lt hk).1 hwrap] at hc
    cases hc
  · rw [Nat.mod_eq_of_lt (by omega)] at hk
    obtain ⟨_, _, hfl, _⟩ := h.heap.kalloc (by omega) hk
    have hcopied := memcpy_freeList hc
    obtain ⟨_, _, hs₂⟩ := Option.map_eq_some_iff.mp hw
    have hsame : s.freeList = s₂.freeList := by rw [← hs₂]
    omega

lemma obtains_iff (h : HeapInv img hr s blocks) (hwrite : params.a7 = 1) (ha2 : params.a2 + 33 < 2 ^ 64) :
    Obtains img s blocks params ↔
      growthFrames s (pagesNeeded s (params.a2 + 1)) s.virtualAllocEnd ≤ framesLeft img s.mem := by
  have hserved := h.heap.kalloc_iff (by omega : params.a2 + 1 + 32 < 2 ^ 64)
  rw [source_left] at hserved
  rw [← hserved, Obtains, Nat.mod_eq_of_lt (by omega)]
  constructor
  · rintro ⟨fuel, p, s₁, hk, _⟩
    exact ⟨fuel, p, s₁, hk⟩
  · rintro ⟨fuel, p, s₁, hk⟩
    have hmem : ∀ q, (q, params.a2 + 1) ∈ (q, params.a2 + 1) :: blocks := fun _ => List.mem_cons_self
    have hinv : ∀ {fuel q t}, kalloc (kallocFrame (reserved img)) fuel s (params.a2 + 1) = some (q, t) →
        HeapInv img hr t ((q, params.a2 + 1) :: blocks) := fun hk => h.kalloc (by omega) hk
    refine ⟨fuel, p, s₁, hk, intact_of_heapInv (hinv hk), fun n hn s₂ hc => ?_, ?_⟩
    · exact intact_of_heapInv ((hinv hk).memcpy (hmem p) (hn.trans (Nat.le_succ _)) hc)
    · intro fuel' others logLevel s' out hs
      obtain ⟨q, t, s₂, hk', hc, hw⟩ := handleSyscall_parts hwrite hs
      rw [Nat.mod_eq_of_lt (by omega)] at hk'
      obtain ⟨_, rfl, _⟩ := h.heap.kalloc (by omega) hk
      obtain ⟨h₁, rfl, hfl, _⟩ := h.heap.kalloc (by omega) hk'
      have hspace := h₁.space
      have hend := h₁.end_le
      rw [heapLimit_eq] at hend
      rw [Nat.mod_eq_of_lt (by omega)] at hw
      have h₂ := (hinv hk').memcpy (hmem _) (Nat.le_succ _) hc
      exact intact_of_heapInv (h₂.write (hmem _) ⟨Nat.le_add_right _ _, by dsimp only; omega⟩ hw)

lemma not_writeSafe (h : HeapInv img hr s blocks) (hwrite : params.a7 = 1) (ha2 : params.a2 < 2 ^ 64)
    (hwrap : 2 ^ 64 ≤ params.a2 + 33) : ¬ WriteSafe img s blocks params := by
  rintro (hrefuses | hobtains)
  · exact not_refuses h hwrite ha2 hrefuses
  · exact not_obtains hwrap hobtains

end Lengths

/-- In every state that the kernel can reach, and for every length: `write` is safe exactly if none of the additions
wraps and the frames are there for the block. -/
theorem writeSafe_iff (img : Image) (m : Memory) (hready : Ready img m) (s : State Frames) (blocks : List Block)
    (hrun : KernelRun img m s blocks) (params : SyscallParameters) (hwrite : params.a7 = 1)
    (ha2 : params.a2 < 2 ^ 64) :
    WriteSafe img s blocks params ↔ params.a2 + 33 < 2 ^ 64 ∧
      growthFrames s (pagesNeeded s (params.a2 + 1)) s.virtualAllocEnd ≤ framesLeft img s.mem := by
  have h := hrun.heapInv hready
  constructor
  · intro hs
    have hlt : params.a2 + 33 < 2 ^ 64 := by
      by_contra hwrap
      exact not_writeSafe h hwrite ha2 (by omega) hs
    rcases hs with hrefuses | hobtains
    · exact absurd hrefuses (not_refuses h hwrite ha2)
    · exact ⟨hlt, (obtains_iff h hwrite hlt).mp hobtains⟩
  · rintro ⟨hlt, hframes⟩
    exact Or.inr ((obtains_iff h hwrite hlt).mpr hframes)

section Examples

theorem writeSafe_letter : ∃ s, KernelRun megabyteImage (fun _ => 0) s [] ∧ loadByte s 0x10000 = some 0x41 ∧
    WriteSafe megabyteImage s [] ⟨1, 0x10000, 1, 1⟩ := by
  obtain ⟨s, hrun, hletter, _, hleft⟩ := letter_page
  have h := (KernelInv.run megabyteImage_ready hrun).kernel
  obtain ⟨s', hk, _⟩ := kalloc_effect h (by decide : 1 + 1 < 2 ^ 62) (by decide : (1 + 1) / 4096 + 2 < 3)
    (by rw [source_left]; omega)
  have hframes := (h.kalloc_iff (by decide : 1 + 1 + 32 < 2 ^ 64)).mp ⟨_, _, _, hk⟩
  rw [source_left] at hframes
  have hlt : 1 + 33 < 2 ^ 64 := by decide
  exact ⟨s, hrun, hletter, (writeSafe_iff _ _ megabyteImage_ready s [] hrun ⟨1, 0x10000, 1, 1⟩ rfl (by decide)).mpr
    ⟨hlt, hframes⟩⟩

/-- The largest length asks for a block of no bytes, and gets it. -/
theorem not_writeSafe_largest : ∃ s, KernelRun megabyteImage (fun _ => 0) s [] ∧ loadByte s 0x10000 = some 0x41 ∧
    (∃ p s₁, kalloc (kallocFrame (reserved megabyteImage)) 3 s ((2 ^ 64 - 1 + 1) % 2 ^ 64) = some (p, s₁) ∧
      s₁.freeList = p) ∧
    ¬ WriteSafe megabyteImage s [] ⟨1, 0x10000, 2 ^ 64 - 1, 1⟩ := by
  obtain ⟨s, hrun, hletter, _, hleft⟩ := letter_page
  have h := hrun.heapInv megabyteImage_ready
  obtain ⟨s', hk, hfl, _⟩ := kalloc_effect h.heap (by decide : 0 < 2 ^ 62) (by decide : 0 / 4096 + 2 < 3)
    (by rw [source_left]; omega)
  have hzero : (2 ^ 64 - 1 + 1) % 2 ^ 64 = 0 := by norm_num
  have hlt : 2 ^ 64 - 1 < 2 ^ 64 := by norm_num
  have hwrap : 2 ^ 64 ≤ 2 ^ 64 - 1 + 33 := by norm_num
  refine ⟨s, hrun, hletter, ⟨s.freeList + 16, s', ?_, hfl⟩, ?_⟩
  · rw [hzero]
    exact hk
  · generalize 2 ^ 64 - 1 = n at hlt hwrap
    exact not_writeSafe h rfl hlt hwrap

end Examples

end TetraOS.Console
