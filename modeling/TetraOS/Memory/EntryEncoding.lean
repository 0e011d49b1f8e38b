import TetraOS.Memory.Paging

/-! Page numbers in page-table entries. An entry is made with a mask of 40 bits and read without one, and the page
number of a table is masked to the 44 bits that the processor takes. -/

namespace TetraOS.Memory

open Library.ByteMemory PageTable

/-- The memory after `map_page` or `map_page_for_setup` has stored an entry for a frame. -/
def stored (m : Memory) (table : ℕ) (index : Fin 512) (physicalFrame flag : ℕ) : Memory :=
  setEntry m table index (createValidPageTableEntry (PhysicalFrame.getPpn physicalFrame) ||| flag)

structure ReadsBack (m : Memory) (table : ℕ) (index : Fin 512) (physicalFrame flag : ℕ) : Prop where
  valid : isEntryValid (stored m table index physicalFrame flag) table index = true
  frame : getPhysicalFrame (stored m table index physicalFrame flag) table index = physicalFrame
  flags : getEntry (stored m table index physicalFrame flag) table index &&& 0x3FF = flag ||| 1

section Stored

variable {m : Memory} {table : ℕ} {index : Fin 512} {physicalFrame flag : ℕ} (hflag : flag < 2 ^ 10)
include hflag

lemma getEntry_stored : getEntry (stored m table index physicalFrame flag) table index =
    physicalFrame / 4096 % 2 ^ 40 * 1024 + (1 ||| flag) := by
  have hor : 1 ||| flag < 2 ^ 10 := Nat.or_lt_two_pow (by decide) hflag
  rw [stored, leafEntry_eq hflag, PhysicalFrame.getPpn_eq]
  exact load_store_of_lt (by omega)

lemma isEntryValid_stored : isEntryValid (stored m table index physicalFrame flag) table index = true := by
  have hodd : (1 ||| flag) % 2 = 1 := Nat.or_mod_two_eq_one.mpr (Or.inl rfl)
  have hmod : (physicalFrame / 4096 % 2 ^ 40 * 1024 + (1 ||| flag)) % 2 = 1 := by omega
  rw [isEntryValid, getEntry_stored hflag, Nat.and_one_is_mod, hmod]
  rfl

lemma flags_stored : getEntry (stored m table index physicalFrame flag) table index &&& 0x3FF = flag ||| 1 := by
  have hor : 1 ||| flag < 2 ^ 10 := Nat.or_lt_two_pow (by decide) hflag
  rw [getEntry_stored hflag, show (0x3FF : ℕ) = 2 ^ 10 - 1 from rfl, Nat.and_two_pow_sub_one_eq_mod, Nat.or_comm flag]
  omega

lemma getPhysicalFrame_stored (haligned : physicalFrame % 4096 = 0) :
    getPhysicalFrame (stored m table index physicalFrame flag) table index = physicalFrame % 2 ^ 52 := by
  have hor : 1 ||| flag < 2 ^ 10 := Nat.or_lt_two_pow (by decide) hflag
  rw [getPhysicalFrame, getEntry_stored hflag, Nat.shiftRight_eq_div_pow, Nat.shiftLeft_eq]
  omega

end Stored

lemma getPpn_direct {frame : ℕ} (h : frame < 2 ^ 47) : getPpn (virtualOffset + frame) = frame >>> 12 := by
  have hphysical : physical (virtualOffset + frame) = frame := by
    rw [physical_eq]
    simp only [virtualOffset]
    omega
  rw [getPpn, hphysical, show (0xFFFFFFFFFFF : ℕ) = 2 ^ 44 - 1 from rfl, Nat.and_two_pow_sub_one_eq_mod,
    Nat.shiftRight_eq_div_pow]
  omega

/-- Entries hold addresses of 52 bits only, while the page numbers of tables are complete. -/
theorem readsBack_iff (m : Memory) (table : ℕ) (index : Fin 512) (physicalFrame flag : ℕ)
    (haligned : physicalFrame % 4096 = 0) (hframe : physicalFrame < 2 ^ 56) (hflag : flag < 2 ^ 10) :
    (ReadsBack m table index physicalFrame flag ↔ physicalFrame < 2 ^ 52) ∧
      ∀ f, f < 2 ^ 47 → getPpn (virtualOffset + f) = f >>> 12 := by
  refine ⟨⟨fun h => ?_, fun h => ?_⟩, fun f hf => getPpn_direct hf⟩
  · have hback := h.frame
    rw [getPhysicalFrame_stored hflag haligned] at hback
    omega
  · refine ⟨isEntryValid_stored hflag, ?_, flags_stored hflag⟩
    rw [getPhysicalFrame_stored hflag haligned, Nat.mod_eq_of_lt h]

theorem readsBack_kernel : ReadsBack (fun _ => 0) 0xFFFF800080010000 256 0x80000000 0xF ∧
    getPpn (virtualOffset + 0x80010000) = 0x80010 := by
  obtain ⟨hentry, htable⟩ := readsBack_iff (fun _ => 0) 0xFFFF800080010000 256 0x80000000 0xF (by decide)
    (by decide) (by decide)
  exact ⟨hentry.mpr (by decide), htable 0x80010000 (by decide)⟩

/-- A page number of 41 bits is stored as 0. -/
theorem not_readsBack_wide : 2 ^ 52 % 4096 = 0 ∧ 2 ^ 52 < 2 ^ 56 ∧
    getPhysicalFrame (stored (fun _ => 0) 0xFFFF800080010000 256 (2 ^ 52) 0xF) 0xFFFF800080010000 256 = 0 ∧
    ¬ ReadsBack (fun _ => 0) 0xFFFF800080010000 256 (2 ^ 52) 0xF := by
  have hzero : getPhysicalFrame (stored (fun _ => 0) 0xFFFF800080010000 256 (2 ^ 52) 0xF) 0xFFFF800080010000 256 = 0 :=
    (getPhysicalFrame_stored (by decide) (by decide)).trans (by decide)
  refine ⟨by decide, by decide, hzero, fun h => ?_⟩
  exact absurd (h.frame.symm.trans hzero) (by decide)

end TetraOS.Memory
