import TetraOS.Memory.Machine
import TetraOS.Library.TableTree

/-! Page tables (kernel/memory/paging.cpp). Tables are reached at their frame's address in the direct
map. The frame allocator is a parameter of everything that draws frames. -/

namespace TetraOS.Memory

open Library.ByteMemory Library.TableTree VirtualPage

variable {α : Type}

abbrev FrameAlloc (α : Type) := Memory → α → Option (ℕ × Memory × α)

def State.kallocFrame (k : FrameAlloc α) (s : State α) : Option (ℕ × State α) :=
  (k s.mem s.frames).map fun (f, m, a) => (f, { s with mem := m, frames := a })

def createValidPageTableEntry (ppn : ℕ) : ℕ := (ppn &&& 0xFFFFFFFFFF) <<< 10 ||| 1

namespace PageTable

def getEntry (m : Memory) (table : ℕ) (index : Fin 512) : ℕ := load m 8 (physical (table + 8 * index))

def setEntry (m : Memory) (table : ℕ) (index : Fin 512) (entry : ℕ) : Memory :=
  store m 8 (physical (table + 8 * index)) entry

def getPhysicalFrame (m : Memory) (table : ℕ) (index : Fin 512) : ℕ :=
  getEntry m table index >>> 10 <<< 12 % 2 ^ 64

def getPpn (table : ℕ) : ℕ := physical table >>> 12 &&& 0xFFFFFFFFFFF

def isEntryValid (m : Memory) (table : ℕ) (index : Fin 512) : Bool := getEntry m table index &&& 1 == 1

end PageTable

open PageTable

def tableAt (m : Memory) (table : ℕ) (index : Fin 512) : ℕ :=
  (getPhysicalFrame m table index + virtualOffset) % 2 ^ 64

def mapPageForSetup (m : Memory) (firstTable secondTable pageToMap frame : ℕ) : Memory :=
  let m := setEntry m firstTable (getVpn3 pageToMap) (createValidPageTableEntry (getPpn secondTable))
  setEntry m secondTable (getVpn2 pageToMap) (createValidPageTableEntry (PhysicalFrame.getPpn frame) ||| 0xF)

abbrev gigabyteBytes : ℕ := 0x40000000

def setupLoop (m : Memory) (firstTable secondTable : ℕ) : Memory :=
  (List.range 4).foldl (fun m i =>
    mapPageForSetup m firstTable secondTable (virtualOffset + i * gigabyteBytes) (i * gigabyteBytes)) m

def pagingInit (k : FrameAlloc α) (s : State α) : Option (State α) := do
  let (firstFrame, s) ← s.kallocFrame k
  let (secondFrame, s) ← s.kallocFrame k
  let firstTable := (firstFrame + virtualOffset) % 2 ^ 64
  let secondTable := (secondFrame + virtualOffset) % 2 ^ 64
  some { s with
    mem := setupLoop s.mem firstTable secondTable
    firstLevelTable := firstTable
    satp := PhysicalFrame.getPpn firstFrame }

-- One of the three checks of `map_page`: look at an entry, make a new table if it is invalid, and
-- go to the table it points to.
def nextTable (k : FrameAlloc α) (s : State α) (table : ℕ) (index : Fin 512) : Option (State α × ℕ) :=
  let checked := if isEntryValid s.mem table index then some s else
    (s.kallocFrame k).map fun (frame, s) =>
      { s with mem := setEntry s.mem table index (createValidPageTableEntry (PhysicalFrame.getPpn frame)) }
  checked.map fun s => (s, tableAt s.mem table index)

def mapPage (k : FrameAlloc α) (s : State α) (virtualPage physicalFrame flag : ℕ) : Option (State α) := do
  let (s, secondTable) ← nextTable k s s.firstLevelTable (getVpn3 virtualPage)
  let (s, thirdTable) ← nextTable k s secondTable (getVpn2 virtualPage)
  let (s, fourthTable) ← nextTable k s thirdTable (getVpn1 virtualPage)
  let leaf := createValidPageTableEntry (PhysicalFrame.getPpn physicalFrame) ||| flag
  some { s with mem := setEntry s.mem fourthTable (getVpn0 virtualPage) leaf }

def getPhysicalAddressOfVirtualAddress (s : State α) (virtualAddress : ℕ) : ℕ :=
  let m := s.mem
  if !isEntryValid m s.firstLevelTable (getVpn3 virtualAddress) then 0 else
  let secondTable := tableAt m s.firstLevelTable (getVpn3 virtualAddress)
  if !isEntryValid m secondTable (getVpn2 virtualAddress) then 0 else
  let thirdTable := tableAt m secondTable (getVpn2 virtualAddress)
  if !isEntryValid m thirdTable (getVpn1 virtualAddress) then 0 else
  let fourthTable := tableAt m thirdTable (getVpn1 virtualAddress)
  if !isEntryValid m fourthTable (getVpn0 virtualAddress) then 0 else
  getPhysicalFrame m fourthTable (getVpn0 virtualAddress) ||| getOffset virtualAddress

lemma nextTable_cases {k : FrameAlloc α} {s s' : State α} {table T : ℕ} {i : Fin 512}
    (h : nextTable k s table i = some (s', T)) : T = tableAt s'.mem table i ∧
      ((isEntryValid s.mem table i = true ∧ s' = s) ∨ (isEntryValid s.mem table i = false ∧
        ∃ f s₁, s.kallocFrame k = some (f, s₁) ∧
          s' = { s₁ with mem := setEntry s₁.mem table i (createValidPageTableEntry (PhysicalFrame.getPpn f)) })) := by
  simp only [nextTable, Option.map_eq_some_iff, Prod.mk.injEq] at h
  obtain ⟨s₂, h, rfl, rfl⟩ := h
  refine ⟨rfl, ?_⟩
  split at h
  · rename_i hv
    exact Or.inl ⟨hv, (Option.some.inj h).symm⟩
  · rename_i hv
    obtain ⟨⟨f, s₁⟩, hk, rfl⟩ := Option.map_eq_some_iff.mp h
    exact Or.inr ⟨Bool.eq_false_of_not_eq_true hv, f, s₁, hk, rfl⟩

lemma mapPage_cases {k : FrameAlloc α} {s s' : State α} {v f flag : ℕ} (h : mapPage k s v f flag = some s') :
    ∃ s₁ s₂ s₃ T₁ T₂ T₃ e, nextTable k s s.firstLevelTable (getVpn3 v) = some (s₁, T₁) ∧
      nextTable k s₁ T₁ (getVpn2 v) = some (s₂, T₂) ∧ nextTable k s₂ T₂ (getVpn1 v) = some (s₃, T₃) ∧
      e = createValidPageTableEntry (PhysicalFrame.getPpn f) ||| flag ∧
      s' = { s₃ with mem := setEntry s₃.mem T₃ (getVpn0 v) e } := by
  simp only [mapPage, Option.bind_eq_bind, Option.bind_eq_some_iff, Option.some.injEq] at h
  obtain ⟨⟨s₁, T₁⟩, h₁, ⟨s₂, T₂⟩, h₂, ⟨s₃, T₃⟩, h₃, rfl⟩ := h
  exact ⟨s₁, s₂, s₃, T₁, T₂, T₃, _, h₁, h₂, h₃, rfl, rfl⟩

def entry (m : Memory) (t : ℕ) (i : Fin 512) : ℕ := load m 8 (4096 * t + 8 * i)

def target (e : ℕ) : Option ℕ := if e % 2 = 1 then some (e / 1024 % 2 ^ 52) else none

def slot (m : Memory) (t : ℕ) (i : Fin 512) : Option ℕ := target (entry m t i)

def tableAddress (t : ℕ) : ℕ := (4096 * t + virtualOffset) % 2 ^ 64

section Entries

variable {m : Memory} {t : ℕ} {i : Fin 512}

lemma getEntry_tableAddress (h : t < 2 ^ 52) : getEntry m (tableAddress t) i = entry m t i := by
  rw [getEntry, tableAddress, physical_direct (by omega), entry]

lemma setEntry_tableAddress {e : ℕ} (h : t < 2 ^ 52) :
    setEntry m (tableAddress t) i e = store m 8 (4096 * t + 8 * i) e := by
  rw [setEntry, tableAddress, physical_direct (by omega)]

lemma isEntryValid_tableAddress (h : t < 2 ^ 52) :
    isEntryValid m (tableAddress t) i = decide (entry m t i % 2 = 1) := by
  rw [isEntryValid, getEntry_tableAddress h, Nat.and_one_is_mod]
  rfl

lemma getPhysicalFrame_tableAddress (h : t < 2 ^ 52) :
    getPhysicalFrame m (tableAddress t) i = 4096 * (entry m t i / 1024 % 2 ^ 52) := by
  rw [getPhysicalFrame, getEntry_tableAddress h, Nat.shiftLeft_eq, Nat.shiftRight_eq_div_pow]
  omega

lemma tableAt_tableAddress (h : t < 2 ^ 52) :
    tableAt m (tableAddress t) i = tableAddress (entry m t i / 1024 % 2 ^ 52) := by
  rw [tableAt, getPhysicalFrame_tableAddress h, tableAddress]

lemma slot_eq_some {u : ℕ} (h : slot m t i = some u) : entry m t i % 2 = 1 ∧ u = entry m t i / 1024 % 2 ^ 52 := by
  rw [slot, target] at h
  split at h
  · rename_i hv; exact ⟨hv, (Option.some.inj h).symm⟩
  · cases h

lemma entry_store {e u : ℕ} {j : Fin 512} (he : e < 2 ^ 64) :
    entry (store m 8 (4096 * t + 8 * i) e) u j = if u = t ∧ j = i then e else entry m u j := by
  split
  · rename_i h
    obtain ⟨rfl, rfl⟩ := h
    exact load_store_of_lt he
  · rename_i h
    have hne : u ≠ t ∨ j.val ≠ i.val := by
      by_contra hc
      push Not at hc
      exact h ⟨hc.1, Fin.ext hc.2⟩
    exact load_store_disjoint (by omega)

lemma entry_congr {m' : Memory} (h : ∀ x, x / 4096 = t → m' x = m x) : entry m' t i = entry m t i :=
  load_congr fun x _ _ => h x (by omega)

lemma entry_zero (h : Zero m (4096 * t) 4096) : entry m t i = 0 := h.load (by omega) (by omega)

lemma slot_eq_none (h : entry m t i % 2 = 0) : slot m t i = none := by
  rw [slot, target, if_neg (by omega)]

lemma slot_zero (h : Zero m (4096 * t) 4096) : slot m t i = none := slot_eq_none (by rw [entry_zero h])

end Entries

lemma tableAddress_eq (t : ℕ) : tableAddress t = (4096 * t + virtualOffset) % 2 ^ 64 := rfl

attribute [irreducible] entry tableAddress

section Arithmetic

lemma createValidPageTableEntry_eq (ppn : ℕ) : createValidPageTableEntry ppn = ppn % 2 ^ 40 * 1024 + 1 := by
  rw [createValidPageTableEntry, show (0xFFFFFFFFFF : ℕ) = 2 ^ 40 - 1 from rfl,
    Nat.and_two_pow_sub_one_eq_mod, ← Nat.shiftLeft_add_eq_or_of_lt (by decide), Nat.shiftLeft_eq]

lemma leafEntry_eq {ppn flag : ℕ} (h : flag < 2 ^ 10) :
    createValidPageTableEntry ppn ||| flag = ppn % 2 ^ 40 * 1024 + (1 ||| flag) := by
  have hf : 1 ||| flag < 2 ^ 10 := Nat.or_lt_two_pow (by decide) h
  rw [createValidPageTableEntry, show (0xFFFFFFFFFF : ℕ) = 2 ^ 40 - 1 from rfl,
    Nat.and_two_pow_sub_one_eq_mod, Nat.or_assoc, ← Nat.shiftLeft_add_eq_or_of_lt hf, Nat.shiftLeft_eq]

lemma or_offset {f a : ℕ} : 4096 * f ||| getOffset a = 4096 * f + a % 4096 := by
  rw [getOffset_eq]
  exact (Nat.two_pow_add_eq_or_of_lt (i := 12) (Nat.mod_lt _ (by decide)) f).symm

end Arithmetic

lemma getPhysicalAddress_eq_walk {s : State α} {r : ℕ} (hr : r < 2 ^ 52)
    (hs : s.firstLevelTable = tableAddress r) (va : ℕ) :
    getPhysicalAddressOfVirtualAddress s va =
      (walk (slot s.mem) r (path va)).elim 0 fun f => 4096 * f + va % 4096 := by
  have hstep : ∀ {t : ℕ} {β : Type} (i : Fin 512) (f : ℕ → Option β), t < 2 ^ 52 →
      (slot s.mem t i).bind f = if !isEntryValid s.mem (tableAddress t) i then none else
        f (entry s.mem t i / 1024 % 2 ^ 52) := by
    intro t β i f ht
    rw [isEntryValid_tableAddress ht, slot, target]
    by_cases hv : entry s.mem t i % 2 = 1 <;> simp [hv]
  have hlt : ∀ e : ℕ, e / 1024 % 2 ^ 52 < 2 ^ 52 := fun e => Nat.mod_lt _ (by decide)
  simp only [getPhysicalAddressOfVirtualAddress, hs, path, walk_cons, walk_nil, hstep _ _ hr, hstep _ _ (hlt _),
    tableAt_tableAddress hr, tableAt_tableAddress (hlt _), getPhysicalFrame_tableAddress (hlt _), or_offset]
  split_ifs <;> rfl

end TetraOS.Memory
