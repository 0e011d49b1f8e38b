import TetraOS.Library.ByteMemory

/-! Lists of bytes in a memory, and words written out as lists. -/

namespace TetraOS.Library.ByteMemory

def bytes : (n v : ℕ) → List UInt8
  | 0, _ => []
  | n + 1, v => UInt8.ofNat v :: bytes n (v / 256)

def Holds (m : Memory) : ℕ → List UInt8 → Prop
  | _, [] => True
  | a, b :: l => m a = b ∧ Holds m (a + 1) l

section Holds

variable {m : Memory} {a n v : ℕ} {l l' : List UInt8}

@[simp] lemma length_bytes (n v : ℕ) : (bytes n v).length = n := by
  induction n generalizing v with
  | zero => rfl
  | succ n ih => rw [bytes, List.length_cons, ih]

lemma holds_append : Holds m a (l ++ l') ↔ Holds m a l ∧ Holds m (a + l.length) l' := by
  induction l generalizing a with
  | nil => exact (iff_of_eq (true_and _)).symm
  | cons b l ih =>
    rw [List.cons_append, Holds, Holds, ih, and_assoc, List.length_cons, Nat.add_right_comm, Nat.add_assoc]

lemma holds_iff : Holds m a l ↔ ∀ i (hi : i < l.length), m (a + i) = l[i] := by
  induction l generalizing a with
  | nil => exact iff_of_true trivial fun i hi => absurd hi (Nat.not_lt_zero i)
  | cons b l ih =>
    rw [Holds, ih]
    constructor
    · rintro ⟨hfirst, hrest⟩ i hi
      cases i with
      | zero => exact hfirst
      | succ i =>
        have hbyte := hrest i (Nat.lt_of_succ_lt_succ hi)
        rwa [Nat.add_right_comm] at hbyte
    · intro h
      refine ⟨h 0 (Nat.succ_pos _), fun i hi => ?_⟩
      rw [Nat.add_right_comm]
      exact h (i + 1) (Nat.succ_lt_succ hi)

lemma load_of_holds (h : Holds m a (bytes n v)) (hv : v < 256 ^ n) : load m n a = v := by
  induction n generalizing a v with
  | zero =>
    rw [pow_zero, Nat.lt_one_iff] at hv
    rw [hv, load]
  | succ n ih =>
    obtain ⟨hfirst, hrest⟩ := h
    have hdiv : v / 256 < 256 ^ n := Nat.div_lt_of_lt_mul (by rwa [← pow_succ'])
    rw [load, ih hrest hdiv, hfirst, UInt8.toNat_ofNat']
    omega

end Holds

end TetraOS.Library.ByteMemory
