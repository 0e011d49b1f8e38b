import TetraOS.Memory.HeapRuns

/-! Runs in which the kernel heap and the pages of processes take frames from one allocator. -/

namespace TetraOS.Memory

open Library.ByteMemory Library.TableTree VirtualPage FreeSpace PhysicalAllocator Relation

/-- The page tables reachable from the root, with the number of levels below them: an entry points to
a table if it is valid and carries none of the access bits of a leaf. -/
inductive IsTable {α : Type} (s : State α) : ℕ → ℕ → Prop
  | root : IsTable s 3 s.satp
  | next {level t : ℕ} {i : Fin 512} : IsTable s (level + 1) t → entry s.mem t i % 2 = 1 →
      entry s.mem t i / 2 % 8 = 0 → IsTable s level (entry s.mem t i / 1024 % 2 ^ 44)

lemma DirectMapped.of_concat {p : List (Fin 512)} {i : Fin 512} (h : DirectMapped (p ++ [i])) (hp : ¬ DirectMapped p) :
    p = [256] ∧ i.val < 4 := by
  obtain ⟨j, rest, heq, hj⟩ := h
  match p, heq with
  | [], heq => simp at heq
  | [a], heq =>
    simp only [List.cons_append, List.nil_append, List.cons.injEq] at heq
    obtain ⟨rfl, rfl, _⟩ := heq
    exact ⟨rfl, hj⟩
  | a :: b :: rest', heq =>
    simp only [List.cons_append, List.cons.injEq] at heq
    obtain ⟨rfl, rfl, _⟩ := heq
    exact absurd ⟨b, rest', rfl, hj⟩ hp

lemma IsTable.walk {α : Type} {S : FrameSource α} {L K : List (Fin 512) → Prop} {s : State α}
    (h : Tree S L (EntryOk K) s) {level t : ℕ} (ht : IsTable s level t) :
    ∃ p, Node p ∧ p.length + level = 3 ∧ walk (slot s.mem) s.satp p = some t := by
  induction ht with
  | root => exact ⟨[], node_nil, rfl, walk_nil⟩
  | @next level t i _ hv hptr ih =>
    obtain ⟨p, hp, hl, hw⟩ := ih
    have hd : ¬ DirectMapped (p ++ [i]) := by
      intro hd
      obtain ⟨rfl, hi⟩ := hd.of_concat hp.2
      obtain ⟨u, hu, hj⟩ := h.direct
      obtain rfl : t = u := Option.some.inj (hw.symm.trans hu)
      rw [hj i hi] at hptr
      omega
    have hok := h.entries p t i hp hw hd hv
    refine ⟨p ++ [i], ⟨by simp; omega, hd⟩, by simp; omega, ?_⟩
    have hn := hok.ppn
    rw [walk_concat, hw, Option.bind_some, slot, target, if_pos hv, Nat.mod_eq_of_lt hn, Nat.mod_eq_of_lt (by omega)]

inductive SharedStep (img : Image) : State Frames × List Block → State Frames × List Block → Prop
  | kalloc {s s' blocks fuel size p} : size < 2 ^ 62 →
      kalloc (kallocFrame (reserved img)) fuel s size = some (p, s') →
      SharedStep img (s, blocks) (s', (p, size) :: blocks)
  | mapFrame {s s₁ s' blocks v f flag} : v < 2 ^ 47 → flag < 2 ^ 10 →
      s.kallocFrame (kallocFrame (reserved img)) = some (f, s₁) →
      mapPage (kallocFrame (reserved img)) s₁ v f flag = some s' → SharedStep img (s, blocks) (s', blocks)
  | write {s s' blocks va x} : (∃ b ∈ blocks, va ∈ Block.range b) ∨ va < 2 ^ 47 → storeByte s va x = some s' →
      SharedStep img (s, blocks) (s', blocks)

def SharedRun (img : Image) (m : Memory) (s : State Frames) (blocks : List Block) : Prop :=
  ∃ s₀, boot img m = some s₀ ∧ ReflTransGen (SharedStep img) (s₀, []) (s, blocks)

structure SharedInv (img : Image) (hr : Room img) (s : State Frames) (blocks : List Block) : Prop where
  heap : HeapOk (source img hr) Everywhere HeapPath s
  below : ∀ b ∈ blocks, heapStart ≤ b.1 ∧ b.1 + b.2 ≤ s.freeList

namespace SharedInv

variable {img : Image} {hr : Room img} {s s₁ s' : State Frames} {blocks : List Block} (h : SharedInv img hr s blocks)
include h

lemma kalloc {fuel size p : ℕ} (hsize : size < 2 ^ 62)
    (hk : kalloc (kallocFrame (reserved img)) fuel s size = some (p, s')) :
    SharedInv img hr s' ((p, size) :: blocks) := by
  obtain ⟨h', rfl, hfl, _⟩ := h.heap.kalloc (by omega) hk
  exact ⟨h', below_cons h.heap.start h.below hfl⟩

lemma mapFrame {v f flag : ℕ} (hv : v < 2 ^ 47) (hflag : flag < 2 ^ 10)
    (hk : s.kallocFrame (kallocFrame (reserved img)) = some (f, s₁))
    (hm : mapPage (kallocFrame (reserved img)) s₁ v f flag = some s') : SharedInv img hr s' blocks := by
  have hnot := not_heapPath_of_lower hv
  obtain ⟨h', n, _, hnew⟩ := h.heap.mapNew (outside_of_lower hv) hnot hflag (fun hK => absurd hK hnot) hk hm
  exact ⟨h', by rw [hnew.freeList]; exact h.below⟩

lemma write {va : ℕ} {x : UInt8} (hva : (∃ b ∈ blocks, va ∈ Block.range b) ∨ va < 2 ^ 47)
    (hw : storeByte s va x = some s') : SharedInv img hr s' blocks := by
  have hwhere := h.heap.before_freeList h.below hva
  obtain ⟨h', hsame, _⟩ := h.heap.storeByte hwhere.1 trivial (Or.inl hwhere.2) hw
  exact ⟨h', by rw [hsame.freeList]; exact h.below⟩

omit h in
lemma run {m : Memory} (hready : Ready img m) (hrun : SharedRun img m s blocks) :
    SharedInv img hready.room s blocks := by
  obtain ⟨s₀, hb, hrun⟩ := hrun
  have hinit : SharedInv img hready.room s₀ [] :=
    ⟨(hready.boot_spec (L := Everywhere) (K := HeapPath) (fun _ _ => trivial) (fun _ hq => hq) hb).heap,
      fun _ hb => absurd hb List.not_mem_nil⟩
  suffices hh : ∀ c, ReflTransGen (SharedStep img) (s₀, []) c → SharedInv img hready.room c.1 c.2 from hh _ hrun
  intro c hc
  induction hc with
  | refl => exact hinit
  | tail _ hs ih =>
    cases hs with
    | kalloc hsize hk => exact ih.kalloc hsize hk
    | mapFrame hv hflag hk hm => exact ih.mapFrame hv hflag hk hm
    | write hva hw => exact ih.write hva hw

end SharedInv

lemma walk_of_address {α : Type} {S : FrameSource α} {L K : List (Fin 512) → Prop} {s : State α}
    (h : Tree S L (EntryOk K) s) {a : ℕ} (hm : getPhysicalAddressOfVirtualAddress s a ≠ 0) :
    walk (slot s.mem) s.satp (path a) = some (getPhysicalAddressOfVirtualAddress s a / 4096) := by
  have hr : s.satp < 2 ^ 52 := h.lt_of_node node_nil walk_nil
  rw [getPhysicalAddress_eq_walk hr h.root] at hm ⊢
  cases hw : walk (slot s.mem) s.satp (path a) with
  | none =>
    rw [hw] at hm
    exact absurd rfl hm
  | some n =>
    rw [Option.elim_some]
    exact congrArg some (by omega)

lemma owned_everywhere {a : ℕ} (ha : Outside a) : Owned Everywhere (path a) :=
  ⟨ha, Or.inr ⟨by simp [path], trivial⟩⟩

/-- No frame has two roles: pages outside the direct map have frames of their own, and none of these is
a page table. -/
theorem pages_not_aliased (img : Image) (m : Memory) (hready : Ready img m) (s : State Frames) (blocks : List Block)
    (hrun : SharedRun img m s blocks) :
    (∀ a b, Outside a → Outside b → pageOf a ≠ pageOf b → getPhysicalAddressOfVirtualAddress s a ≠ 0 →
      getPhysicalAddressOfVirtualAddress s b ≠ 0 →
      getPhysicalAddressOfVirtualAddress s a / 4096 ≠ getPhysicalAddressOfVirtualAddress s b / 4096) ∧
    (∀ a level t, Outside a → getPhysicalAddressOfVirtualAddress s a ≠ 0 → IsTable s level t →
      getPhysicalAddressOfVirtualAddress s a / 4096 ≠ t) := by
  have htree := (SharedInv.run hready hrun).heap.tree
  constructor
  · intro a b ha hb hne hma hmb heq
    have hwa := walk_of_address htree hma
    have hwb := walk_of_address htree hmb
    rw [← heq] at hwb
    exact hne (path_eq_iff.mp (htree.inj _ _ _ (owned_everywhere ha) (owned_everywhere hb) hwa hwb))
  · rintro a level t ha hma ht rfl
    obtain ⟨p, hp, _, hw⟩ := ht.walk htree
    have heq := htree.inj _ _ _ (owned_everywhere ha) hp.owned (walk_of_address htree hma) hw
    exact absurd hp.1 (by rw [← heq]; simp [path])

theorem pages_not_aliased_process_page : ∃ s, SharedRun megabyteImage (fun _ => 0) s [] ∧
    getPhysicalAddressOfVirtualAddress s 0x1001 ≠ 0 ∧ getPhysicalAddressOfVirtualAddress s (heapStart + 1) ≠ 0 ∧
    getPhysicalAddressOfVirtualAddress s 0x1001 / 4096 ≠
      getPhysicalAddressOfVirtualAddress s (heapStart + 1) / 4096 := by
  obtain ⟨s₀, hb⟩ := megabyteImage_ready.boot_isSome (by rw [megabyteImage_reserved]; decide)
  have hbooted := megabyteImage_ready.boot_spec (L := Everywhere) (K := HeapPath) (fun _ _ => trivial)
    (fun _ hq => hq) hb
  have hleft := hbooted.used.framesLeft_eq
  have hmiss := missingTables_le s₀.mem s₀.satp 0x1000
  have hout : Outside 0x1000 := outside_of_lower (by decide)
  have hneed : 1 + missingTables s₀.mem s₀.satp 0x1000 ≤
      (source megabyteImage megabyteImage_ready.room).left s₀.mem s₀.frames := by
    rw [source_left, hleft, megabyteImage_reserved]
    omega
  obtain ⟨f, s₁, s, hk, hm⟩ := mapsNew_isSome hbooted.heap.tree hout 31 hneed
  have hrun : SharedRun megabyteImage (fun _ => 0) s [] :=
    ⟨s₀, hb, ReflTransGen.single (SharedStep.mapFrame (by decide) (by decide) hk hm)⟩
  have h := SharedInv.run megabyteImage_ready hrun
  have hnot := not_heapPath_of_lower (a := 0x1000) (by decide)
  obtain ⟨_, n, _, hnew⟩ := hbooted.heap.mapNew hout hnot (by decide)
    (fun hK => absurd hK hnot) hk hm
  have hr : s.satp < 2 ^ 52 := h.heap.tree.lt_of_node node_nil walk_nil
  have hne₁ : getPhysicalAddressOfVirtualAddress s 0x1001 ≠ 0 := by
    rw [getPhysicalAddress_eq_walk hr h.heap.tree.root, hnew.satp, show path 0x1001 = path 0x1000 by decide, hnew.self,
      Option.elim_some]
    omega
  have hin : InHeap (heapStart + 1) := by
    rw [InHeap, heapStart_eq, heapLimit_eq]
    norm_num
  have hne₂ : getPhysicalAddressOfVirtualAddress s (heapStart + 1) ≠ 0 := by
    obtain ⟨k, hw⟩ := Option.isSome_iff_exists.mp (h.heap.mapped (heapStart + 1) hin.1 (by
      rw [hnew.virtualAllocEnd, hbooted.virtualAllocEnd]
      exact Nat.add_lt_add_left (by decide) _))
    rw [getPhysicalAddress_eq_walk hr h.heap.tree.root, hw, Option.elim_some, heapStart_eq]
    omega
  exact ⟨s, hrun, hne₁, hne₂, (pages_not_aliased _ _ megabyteImage_ready s _ hrun).1 _ _
    (outside_of_lower (by decide)) hin.outside (by rw [heapStart_eq]; decide) hne₁ hne₂⟩

end TetraOS.Memory
