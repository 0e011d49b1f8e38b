import TetraOS.Memory.BootCode

/-! What the processor finds in the tables that `_start` fills. All pages of the kernel go through one table of each
level, so the last level has room for 512 of them. -/

namespace TetraOS.Memory

open Library.ByteMemory Library.TableTree Library.Riscv VirtualPage

def bootState (c : Cpu) : State Unit where
  mem := c.mem
  frames := ()
  satp := (c.csrs .satp).toNat % 2 ^ 44
  firstLevelTable := 0
  freeList := 0
  virtualAllocEnd := 0

def sv48 (c : Cpu) (va : ℕ) : Option ℕ :=
  if (c.csrs .satp).toNat / 2 ^ 60 = 9 then translate (bootState c) va else none

/-- The kernel with the extra pages, and the page of the UART. -/
def BootMapped (img : BootImage) (p : ℕ) : Prop :=
  (kernelStart ≤ p ∧ p < img.kernelEnd + 4096 * extraPages) ∨ (uart ≤ p ∧ p < uart + 4096)

structure MapsKernel (img : BootImage) (c : Cpu) : Prop where
  translates : ∀ p, BootMapped img p → sv48 c (virtualOffset + p) = some p
  apart : ∀ p q a b, BootMapped img p → BootMapped img q → sv48 c (virtualOffset + p) = some a →
    sv48 c (virtualOffset + q) = some b → a / 4096 = b / 4096 → (virtualOffset + p) / 4096 = (virtualOffset + q) / 4096

/-- The tables start zeroed, with what is in front of them in their first page of `.bss`. -/
def TablesZero (img : BootImage) (m : Memory) : Prop :=
  Zero m (4096 * (img.tables / 4096)) (img.tables % 4096 + 7 * 4096)

def lastPage (k q : ℕ) : ℕ := k - 1 - (k - 1 - q) % 512

def pageAddress (q : ℕ) : ℕ := virtualOffset + (kernelStart + 4096 * q)

section Entries

variable {img : BootImage} {T : ℕ} (hT : img.tables = 4096 * T)
include hT

lemma entry_setEntry {m : Memory} {n a flags u : ℕ} {i j : Fin 512} (ha : a < 2 ^ 44) (hf : flags < 1024) :
    entry (img.setEntry m n i (4096 * a) flags) u j =
      if u = T + n ∧ j = i then 1024 * a + flags else entry m u j := by
  have hvalue : 4096 * a / 4 ||| flags = 1024 * a + flags := by
    rw [show 4096 * a / 4 = 2 ^ 10 * a by omega]
    exact (Nat.two_pow_add_eq_or_of_lt (i := 10) hf a).symm
  have haddress : img.tables + 4096 * n + 8 * i = 4096 * (T + n) + 8 * i := by rw [hT, Nat.mul_add]
  rw [BootImage.setEntry, haddress, hvalue, entry_store (by omega)]

lemma tables_lt : T + 7 < 2 ^ 20 + 1 := by
  have htables := img.tables_le.trans (img.fits.trans_eq img.memoryEnd)
  omega

lemma entry_mapAddress {m : Memory} {va f u : ℕ} {j : Fin 512} (hf : f < 2 ^ 44) :
    entry (img.mapAddress m va (4096 * f)) u j =
      if u = T + 3 ∧ j = getVpn0 va then 1024 * f + 15 else
      if u = T + 2 ∧ j = getVpn1 va then 1024 * (T + 3) + 1 else
      if u = T + 1 ∧ j = getVpn2 va then 1024 * (T + 2) + 1 else
      if u = T + 0 ∧ j = getVpn3 va then 1024 * (T + 1) + 1 else entry m u j := by
  have hlt := tables_lt hT
  have hnext : ∀ n, img.tables + 4096 * n = 4096 * (T + n) := fun n => by rw [hT, Nat.mul_add]
  rw [BootImage.mapAddress, hnext, hnext, hnext, entry_setEntry hT hf (by decide),
    entry_setEntry hT (by omega) (by decide), entry_setEntry hT (by omega) (by decide),
    entry_setEntry hT (by omega) (by decide)]

lemma entry_mapUart {m : Memory} {u : ℕ} {j : Fin 512} :
    entry (img.mapUart m) u j =
      if u = T + 6 ∧ j = getVpn0 (virtualOffset + uart) then 1024 * (uart / 4096) + 15 else
      if u = T + 5 ∧ j = getVpn1 (virtualOffset + uart) then 1024 * (T + 6) + 1 else
      if u = T + 1 ∧ j = getVpn2 (virtualOffset + uart) then 1024 * (T + 5) + 1 else entry m u j := by
  have hlt := tables_lt hT
  have hnext : ∀ n, img.tables + 4096 * n = 4096 * (T + n) := fun n => by rw [hT, Nat.mul_add]
  have hframe : ∀ m n i, img.setEntry m n i uart 15 = img.setEntry m n i (4096 * (uart / 4096)) 15 := fun _ _ _ => rfl
  rw [BootImage.mapUart, hnext, hnext, hframe, entry_setEntry hT (by norm_num) (by decide),
    entry_setEntry hT (by omega) (by decide), entry_setEntry hT (by omega) (by decide)]

omit hT in
lemma pageAddress_eq (q : ℕ) : pageAddress q = 0xFFFF800080000000 + 4096 * q := by
  rw [pageAddress, virtualOffset, kernelStart]
  omega

omit hT in
lemma getVpn3_page {q : ℕ} (hq : q < 2 ^ 20) : (getVpn3 (pageAddress q)).val = 256 := by
  rw [getVpn3_val, pageAddress_eq]
  omega

omit hT in
lemma getVpn2_page {q : ℕ} (hq : q < 2 ^ 20) : 2 ≤ (getVpn2 (pageAddress q)).val := by
  rw [getVpn2_val, pageAddress_eq]
  omega

omit hT in
lemma getVpn0_page (q : ℕ) : (getVpn0 (pageAddress q)).val = q % 512 := by
  rw [getVpn0_val, pageAddress_eq]
  omega

structure Filled (T : ℕ) (m : Memory) (k : ℕ) : Prop where
  directory : ∀ q < k, entry m T (getVpn3 (pageAddress q)) = 1024 * (T + 1) + 1
  first : ∀ q < k, entry m (T + 1) (getVpn2 (pageAddress q)) = 1024 * (T + 2) + 1
  second : ∀ q < k, entry m (T + 2) (getVpn1 (pageAddress q)) = 1024 * (T + 3) + 1
  third : ∀ q < k, entry m (T + 3) (getVpn0 (pageAddress q)) = 1024 * (2 ^ 19 + lastPage k q) + 15

variable {m : Memory} {k : ℕ}

omit hT in
lemma lastPage_succ {q : ℕ} (hq : q < k + 1) :
    lastPage (k + 1) q = if q % 512 = k % 512 then k else lastPage k q := by
  rw [lastPage, lastPage]
  split <;> omega

/-- A page shares its tables with the earlier ones, and takes its entry in the last of them from a page
with the same index. -/
lemma Filled.mapAddress (h : Filled T m k) (hk : k < 2 ^ 20) :
    Filled T (img.mapAddress m (pageAddress k) (kernelStart + 4096 * k)) (k + 1) := by
  have hframe : kernelStart + 4096 * k = 4096 * (2 ^ 19 + k) := by
    rw [kernelStart]
    omega
  have hold : ∀ {q : ℕ} {i j : Fin 512}, q < k + 1 → (q = k → i = j) → i ≠ j → q < k := by
    intro q i j hq heq hne
    exact lt_of_le_of_ne (Nat.lt_succ_iff.mp hq) fun h => hne (heq h)
  rw [hframe]
  refine ⟨fun q hq => ?_, fun q hq => ?_, fun q hq => ?_, fun q hq => ?_⟩
  · rw [entry_mapAddress hT (by omega), if_neg (by omega), if_neg (by omega), if_neg (by omega)]
    split_ifs with hj
    · rfl
    · exact h.directory q (hold hq (fun hqk => by rw [hqk]) fun hh => hj ⟨rfl, hh⟩)
  · rw [entry_mapAddress hT (by omega), if_neg (by omega), if_neg (by omega)]
    split_ifs with hj hj'
    · rfl
    · exact absurd hj'.1 (by omega)
    · exact h.first q (hold hq (fun hqk => by rw [hqk]) fun hh => hj ⟨rfl, hh⟩)
  · rw [entry_mapAddress hT (by omega), if_neg (by omega)]
    split_ifs with hj hj' hj'
    · rfl
    · exact absurd hj'.1 (by omega)
    · exact absurd hj'.1 (by omega)
    · exact h.second q (hold hq (fun hqk => by rw [hqk]) fun hh => hj ⟨rfl, hh⟩)
  · have hindex : getVpn0 (pageAddress q) = getVpn0 (pageAddress k) ↔ q % 512 = k % 512 := by
      rw [Fin.ext_iff, getVpn0_page, getVpn0_page]
    rw [entry_mapAddress hT (by omega), lastPage_succ hq]
    by_cases hj : q % 512 = k % 512
    · rw [if_pos ⟨rfl, hindex.mpr hj⟩, if_pos hj]
    · rw [if_neg fun hh => hj (hindex.mp hh.2), if_neg (by omega), if_neg (by omega), if_neg (by omega), if_neg hj]
      exact h.third q (hold hq (fun hqk => by rw [hqk]) fun hh => hj (hindex.mp hh))

lemma filled_mapPages (hk : k ≤ 2 ^ 20) : Filled T (img.mapPages m k) k := by
  induction k with
  | zero => exact ⟨fun _ h => by omega, fun _ h => by omega, fun _ h => by omega, fun _ h => by omega⟩
  | succ k ih => exact (ih (by omega)).mapAddress hT (by omega)

lemma Filled.mapUart (h : Filled T m k) (hk : k ≤ 2 ^ 20) : Filled T (img.mapUart m) k := by
  have huart : (getVpn2 (virtualOffset + uart)).val = 0 := by
    rw [getVpn2_val, virtualOffset, uart]
    norm_num
  refine ⟨fun q hq => ?_, fun q hq => ?_, fun q hq => ?_, fun q hq => ?_⟩
  · rw [entry_mapUart hT, if_neg (by omega), if_neg (by omega), if_neg (by omega), h.directory q hq]
  · have hne : getVpn2 (pageAddress q) ≠ getVpn2 (virtualOffset + uart) := by
      have hpage := getVpn2_page (q := q) (by omega)
      rw [Ne, Fin.ext_iff]
      omega
    rw [entry_mapUart hT, if_neg (by omega), if_neg (by omega), if_neg fun hh => hne hh.2, h.first q hq]
  · rw [entry_mapUart hT, if_neg (by omega), if_neg (by omega), if_neg (by omega), h.second q hq]
  · rw [entry_mapUart hT, if_neg (by omega), if_neg (by omega), if_neg (by omega), h.third q hq]

end Entries

section Translation

variable {m : Memory} {va : ℕ}

lemma hardwareWalk_next {level t n : ℕ} (hn : n < 2 ^ 44)
    (h : entry m t (index va (level + 1)) = 1024 * n + 1) :
    hardwareWalk m va (level + 1) t = hardwareWalk m va level n := by
  rw [hardwareWalk_pointer fun _ => by omega, slot, target, h, if_pos (by omega), Option.bind_some]
  congr 1
  omega

lemma hardwareWalk_last {t n : ℕ} (hn : n < 2 ^ 44) (h : entry m t (getVpn0 va) = 1024 * n + 15) :
    hardwareWalk m va 0 t = some (4096 * n + va % 4096) := by
  have hf : faulting (1024 * n + 15) = false := by
    simp only [faulting, writable, readable, Bool.or_eq_false_iff, decide_eq_false_iff_not, Bool.and_eq_false_iff,
      Bool.not_eq_false', decide_eq_true_eq]
    omega
  have hr : readable (1024 * n + 15) = true := by
    simp only [readable, decide_eq_true_eq]
    omega
  have hppn : (1024 * n + 15) / 1024 % 2 ^ 52 = n := by omega
  have hv : (1024 * n + 15) % 2 = 1 := by omega
  rw [hardwareWalk_leaf fun _ => by omega, slot, target, h, hf, hr, if_pos hv, hppn]
  rfl

variable {img : BootImage} {T : ℕ} {c : Cpu}

lemma mode_word : BitVec.ofInt 64 9 <<< 20 <<< 20 <<< 20 = BitVec.ofNat 64 (2 ^ 60 * 9) := by decide

lemma satp_toNat (img : BootImage) :
    (img.bootPageDirectory >>> 12 ||| BitVec.ofNat 64 (2 ^ 60 * 9)).toNat = 2 ^ 60 * 9 + img.tables / 4096 := by
  have htables := img.tables_le.trans (img.fits.trans_eq img.memoryEnd)
  rw [BitVec.toNat_or, BitVec.toNat_ushiftRight, BootImage.bootPageDirectory, BootImage.table, BitVec.toNat_ofNat,
    BitVec.toNat_ofNat, Nat.mod_eq_of_lt (by omega), Nat.mod_eq_of_lt (by norm_num), Nat.shiftRight_eq_div_pow,
    Nat.or_comm, ← Nat.two_pow_add_eq_or_of_lt (by omega)]
  rfl

lemma sv48_eq (hs : c.csrs .satp = img.bootPageDirectory >>> 12 ||| BitVec.ofInt 64 9 <<< 20 <<< 20 <<< 20)
    (hc : Canonical va) : sv48 c va = hardwareWalk c.mem va 3 (img.tables / 4096) := by
  have htables := img.tables_le.trans (img.fits.trans_eq img.memoryEnd)
  have hroot : (2 ^ 60 * 9 + img.tables / 4096) % 2 ^ 44 = img.tables / 4096 := by omega
  rw [mode_word] at hs
  rw [sv48, translate, bootState, hs, satp_toNat, if_pos (by omega), if_pos hc, hroot]

lemma Filled.hardwareWalk {k q : ℕ} (h : Filled T m k) (hT : T + 7 < 2 ^ 20 + 1) (hk : k ≤ 2 ^ 20) (hq : q < k)
    (hva : path va = path (pageAddress q)) :
    hardwareWalk m va 3 T = some (4096 * (2 ^ 19 + lastPage k q) + va % 4096) := by
  have hlast : lastPage k q ≤ k := (Nat.sub_le _ _).trans (Nat.sub_le _ _)
  simp only [path, List.cons.injEq, and_true] at hva
  obtain ⟨h₃, h₂, h₁, h₀⟩ := hva
  rw [hardwareWalk_next (by omega) (index_three va ▸ h₃ ▸ h.directory q hq),
    hardwareWalk_next (by omega) (index_two va ▸ h₂ ▸ h.first q hq),
    hardwareWalk_next (by omega) (index_one va ▸ h₁ ▸ h.second q hq),
    hardwareWalk_last (by omega) (h₀ ▸ h.third q hq)]

lemma pages_le (img : BootImage) : img.pages ≤ 2 ^ 20 := by
  have hend := kernelEnd_le img
  rw [BootImage.pages, kernelStart, extraPages]
  omega

structure Started (img : BootImage) (m : Memory) (c : Cpu) : Prop where
  mem : c.mem = img.mapUart (img.mapPages m img.pages)
  satp : c.csrs .satp = img.bootPageDirectory >>> 12 ||| BitVec.ofInt 64 9 <<< 20 <<< 20 <<< 20

variable (h : Started img m c)
include h

lemma Started.sv48_kernel (hT : img.tables = 4096 * T) {p : ℕ} (hp : kernelStart ≤ p)
    (hp' : p < img.kernelEnd + 4096 * extraPages) :
    sv48 c (virtualOffset + p) =
      some (4096 * (2 ^ 19 + lastPage img.pages ((p - kernelStart) / 4096)) + p % 4096) := by
  have hend := kernelEnd_le img
  have hq : (p - kernelStart) / 4096 < img.pages := by
    have hpages := (pages_le_iff img).mp le_rfl
    omega
  have hlow : p < 2 ^ 33 := by
    rw [extraPages] at hp'
    omega
  rw [kernelStart] at hp
  have hc : Canonical (virtualOffset + p) := by
    right
    simp only [virtualOffset]
    omega
  have hpath : path (virtualOffset + p) = path (pageAddress ((p - kernelStart) / 4096)) := by
    rw [path_eq_iff, pageOf, pageOf, pageAddress_eq]
    simp only [virtualOffset, kernelStart]
    omega
  have hfilled := (filled_mapPages hT (m := m) (pages_le img)).mapUart hT (pages_le img)
  have htables : img.tables / 4096 = T := by omega
  have hoffset : (virtualOffset + p) % 4096 = p % 4096 := by
    simp only [virtualOffset]
    omega
  rw [sv48_eq h.satp hc, h.mem, htables, hfilled.hardwareWalk (tables_lt hT) (pages_le img) hq hpath, hoffset]

lemma Started.sv48_uart (hT : img.tables = 4096 * T) {p : ℕ} (hp : uart ≤ p) (hp' : p < uart + 4096) :
    sv48 c (virtualOffset + p) = some p := by
  have hstart := kernelStart_lt img
  have hpos : 0 < img.pages := by
    have hpages := (pages_le_iff img (k := 0)).mp.mt (by omega)
    omega
  have hlt := tables_lt hT
  rw [uart] at hp hp'
  have hc : Canonical (virtualOffset + p) := by
    right
    simp only [virtualOffset]
    omega
  have hpath : path (virtualOffset + p) = path (virtualOffset + uart) := by
    rw [path_eq_iff, pageOf, pageOf]
    simp only [virtualOffset, uart]
    omega
  simp only [path, List.cons.injEq, and_true] at hpath
  obtain ⟨h₃, h₂, h₁, h₀⟩ := hpath
  have hfilled := (filled_mapPages hT (m := m) (pages_le img)).mapUart hT (pages_le img)
  have hdirectory : getVpn3 (virtualOffset + p) = getVpn3 (pageAddress 0) := by
    rw [Fin.ext_iff, getVpn3_page (by omega), getVpn3_val]
    simp only [virtualOffset]
    omega
  have htables : img.tables / 4096 = T := by omega
  rw [sv48_eq h.satp hc, h.mem, htables,
    hardwareWalk_next (n := T + 1) (by omega) (index_three _ ▸ hdirectory ▸ hfilled.directory 0 hpos),
    hardwareWalk_next (n := T + 5) (by omega) (by rw [index_two, h₂, entry_mapUart hT, if_neg (by omega),
      if_neg (by omega), if_pos ⟨rfl, rfl⟩]),
    hardwareWalk_next (n := T + 6) (by omega) (by rw [index_one, h₁, entry_mapUart hT, if_neg (by omega),
      if_pos ⟨rfl, rfl⟩]),
    hardwareWalk_last (n := uart / 4096) (by norm_num) (by rw [h₀, entry_mapUart hT, if_pos ⟨rfl, rfl⟩])]
  simp only [virtualOffset, uart]
  congr 1
  omega

end Translation

section Misaligned

variable {img : BootImage} {m : Memory} {x : ℕ} (hx : x < img.tables + 8 * 256)
include hx

lemma mapAddress_before {va p : ℕ} (hva : (getVpn3 va).val = 256) : img.mapAddress m va p x = m x := by
  simp only [BootImage.mapAddress, BootImage.setEntry]
  rw [store_outside (by omega), store_outside (by omega), store_outside (by omega), store_outside (by omega)]

lemma mapPages_before {k : ℕ} (hk : k ≤ 2 ^ 20) : img.mapPages m k x = m x := by
  induction k with
  | zero => rfl
  | succ k ih => exact (mapAddress_before hx (getVpn3_page (by omega))).trans (ih (by omega))

lemma mapUart_before : img.mapUart m x = m x := by
  simp only [BootImage.mapUart, BootImage.setEntry]
  rw [store_outside (by omega), store_outside (by omega), store_outside (by omega)]

end Misaligned

/-- The walk takes the directory to start on a page boundary. When it does not, the entry that the walk looks at lies in
front of the one that was written. -/
lemma Started.sv48_misaligned {img : BootImage} {m : Memory} {c : Cpu} (h : Started img m c) (hz : TablesZero img m)
    (hT : img.tables % 4096 ≠ 0) : sv48 c (virtualOffset + kernelStart) = none := by
  have hc : Canonical (virtualOffset + kernelStart) := by
    right
    simp only [virtualOffset, kernelStart]
    omega
  have hx : 4096 * (img.tables / 4096) + 8 * 256 < img.tables + 8 * 256 := by omega
  have hbyte : c.mem (4096 * (img.tables / 4096) + 8 * 256) = 0 := by
    rw [h.mem, mapUart_before hx, mapPages_before hx (pages_le img)]
    have hin : 8 * 256 < img.tables % 4096 + 7 * 4096 := by omega
    exact hz _ (Nat.le_add_right _ _) (Nat.add_lt_add_left hin _)
  have hindex : index (virtualOffset + kernelStart) 3 = 256 := by
    rw [Fin.ext_iff, index_three, getVpn3_val, virtualOffset, kernelStart]
    norm_num
  have heven : entry c.mem (img.tables / 4096) (index (virtualOffset + kernelStart) 3) % 2 = 0 := by
    rw [hindex, entry, load]
    change ((c.mem (4096 * (img.tables / 4096) + 8 * 256)).toNat + _) % 2 = 0
    rw [hbyte]
    change (0 + _) % 2 = 0
    omega
  have hfault : faulting (entry c.mem (img.tables / 4096) (index (virtualOffset + kernelStart) 3)) = true := by
    rw [faulting, heven]
    rfl
  rw [sv48_eq h.satp hc, hardwareWalk]
  simp only [hfault, if_true]

lemma pages_le_iff_size (img : BootImage) : img.pages ≤ 512 ↔ img.kernelEnd - kernelStart ≤ 232 * 4096 := by
  rw [pages_le_iff, extraPages, kernelStart]
  omega

lemma bootMapped_kernelStart (img : BootImage) : BootMapped img kernelStart :=
  Or.inl ⟨le_rfl, (kernelStart_lt img).trans_le (Nat.le_add_right _ _)⟩

section Condition

variable {img : BootImage} {m : Memory} {c : Cpu} (h : Started img m c)
include h

/-- With more pages than one table holds, the first page has lost its entry to a later one. -/
lemma Started.size_of_mapsKernel (hT : img.tables % 4096 = 0) (hmaps : MapsKernel img c) :
    img.kernelEnd - kernelStart ≤ 232 * 4096 := by
  have hend : kernelStart < img.kernelEnd + 4096 * extraPages :=
    (kernelStart_lt img).trans_le (Nat.le_add_right _ _)
  have hfirst := hmaps.translates _ (bootMapped_kernelStart img)
  rw [h.sv48_kernel (T := img.tables / 4096) (by omega) le_rfl hend, Option.some.injEq, lastPage, kernelStart] at hfirst
  rw [← pages_le_iff_size]
  omega

lemma Started.mapsKernel (hT : img.tables % 4096 = 0) (hsize : img.kernelEnd - kernelStart ≤ 232 * 4096) :
    MapsKernel img c := by
  rw [← pages_le_iff_size] at hsize
  have htranslates : ∀ p, BootMapped img p → sv48 c (virtualOffset + p) = some p := by
    rintro p (⟨hp, hp'⟩ | ⟨hp, hp'⟩)
    · have hq : lastPage img.pages ((p - kernelStart) / 4096) = (p - kernelStart) / 4096 := by
        have hlast := (pages_le_iff img).mp le_rfl
        rw [lastPage]
        omega
      rw [h.sv48_kernel (T := img.tables / 4096) (by omega) hp hp', hq, kernelStart]
      rw [kernelStart] at hp
      congr 1
      omega
    · exact h.sv48_uart (T := img.tables / 4096) (by omega) hp hp'
  refine ⟨htranslates, fun p q a b hp hq ha hb hab => ?_⟩
  rw [htranslates p hp, Option.some.injEq] at ha
  rw [htranslates q hq, Option.some.injEq] at hb
  subst ha hb
  simp only [virtualOffset]
  omega

end Condition

/-- `_start` maps the kernel, the extra pages and the UART as they have to be exactly when its tables are aligned and
the image has at most 232 pages, so that one last-level table is enough. -/
theorem mapsKernel_iff (img : BootImage) (machineHandler supervisorHandler : Word) (c : Cpu)
    (hz : TablesZero img c.mem) :
    (∃ fuel c', start img machineHandler supervisorHandler fuel c = some c' ∧ MapsKernel img c') ↔
      img.tables % 4096 = 0 ∧ img.kernelEnd - kernelStart ≤ 232 * 4096 := by
  have hstarted : ∀ fuel c', start img machineHandler supervisorHandler fuel c = some c' → Started img c.mem c' := by
    intro fuel c' hstart
    obtain ⟨hmem, hsatp⟩ := (start_spec img machineHandler supervisorHandler fuel).1 c' hstart
    exact ⟨hmem, hsatp⟩
  constructor
  · rintro ⟨fuel, c', hstart, hmaps⟩
    have h := hstarted fuel c' hstart
    have hT : img.tables % 4096 = 0 := by
      by_contra hT
      have hfirst := hmaps.translates _ (bootMapped_kernelStart img)
      rw [h.sv48_misaligned hz hT] at hfirst
      cases hfirst
    exact ⟨hT, h.size_of_mapsKernel hT hmaps⟩
  · rintro ⟨hT, hsize⟩
    obtain ⟨c', hstart⟩ := (start_spec img machineHandler supervisorHandler img.pages).2 le_rfl
    exact ⟨_, c', hstart, (hstarted _ c' hstart).mapsKernel hT hsize⟩

def smallKernel : BootImage where
  physicalHeapStart := 0x8000F000
  physicalMemoryEnd := 2 ^ 32
  tables := 0x80008000
  kernelStart_le := by decide
  tables_le := by decide
  fits := by decide
  memoryEnd := rfl

def largeKernel : BootImage where
  physicalHeapStart := 0x800E9000
  physicalMemoryEnd := 2 ^ 32
  tables := 0x80008000
  kernelStart_le := by decide
  tables_le := by decide
  fits := by decide
  memoryEnd := rfl

def resetCpu : Cpu := ⟨fun _ => 0, fun _ => 0, 0x80000000, fun _ => 0⟩

theorem mapsKernel_smallKernel : TablesZero smallKernel resetCpu.mem ∧
    ∃ fuel c', start smallKernel 0x80000100 0x80000200 fuel resetCpu = some c' ∧ MapsKernel smallKernel c' :=
  ⟨fun _ _ _ => rfl, (mapsKernel_iff smallKernel _ _ resetCpu fun _ _ _ => rfl).mpr ⟨by decide, by decide⟩⟩

theorem not_mapsKernel_largeKernel : TablesZero largeKernel resetCpu.mem ∧
    ¬ ∃ fuel c', start largeKernel 0x80000100 0x80000200 fuel resetCpu = some c' ∧ MapsKernel largeKernel c' := by
  refine ⟨fun _ _ _ => rfl, ?_⟩
  rintro ⟨fuel, c', hstart, hmaps⟩
  obtain ⟨hmem, hsatp⟩ := (start_spec largeKernel _ _ fuel).1 c' hstart
  have hsize := Started.size_of_mapsKernel ⟨hmem, hsatp⟩ (by decide) hmaps
  exact absurd hsize (by decide)

end TetraOS.Memory
