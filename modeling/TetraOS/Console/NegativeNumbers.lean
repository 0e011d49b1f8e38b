import TetraOS.Console.Printf

/-! Negative numbers in `vprintf`. Both loops that take digits off stop at anything below ten. -/

namespace TetraOS.Console

def decimal (i : ℤ) : List UInt8 := (if i < 0 then [char '-'] else []) ++ (digits 10 i.natAbs).map digitChar

def KernelPrintsInt (letter : UInt8) (i : ℤ) : Prop :=
  ∀ more, kernelVprintf [char '%', letter] (.int i :: more) = some (more, decimal i)

def TlibcPrintsInt (letter : UInt8) (i : ℤ) : Prop :=
  ∀ buffer more, tlibcVprintf buffer [char '%', letter] (.int i :: more) = some (more, decimal i)

section Negative

variable {i : ℤ} (hneg : i < 0)
include hneg

lemma storeDigits_of_neg (add : ℤ) (room : ℕ) (chars : ℕ → UInt8) (index : ℕ) :
    storeDigits 10 add room chars index i = some (chars, index, i) := by
  cases room <;> rw [storeDigits, if_neg (by omega)]

lemma printInt_of_neg {σ : Type} (emit : σ → UInt8 → Option σ) (out : σ) :
    printInt emit i out = emit out (toChar (i + 48)) := by
  rw [printInt, storeDigits_of_neg hneg, Option.bind_eq_bind, Option.bind_some]
  exact Option.bind_fun_some _

variable {letter : UInt8} (hl : letter = char 'd' ∨ letter = char 'i')
include hl

lemma vprintf_of_neg {σ : Type} (emit : σ → UInt8 → Option σ) (fmt : List UInt8) (args : List Arg) (out : σ) :
    vprintf emit (char '%' :: letter :: fmt) (.int i :: args) out =
      (emit out (toChar (i + 48))).bind (vprintf emit fmt args) := by
  rw [vprintf_int emit fmt args out hl, printInt_of_neg hneg]

lemma kernelVprintf_of_neg (more : List Arg) :
    kernelVprintf [char '%', letter] (.int i :: more) = some (more, [toChar (i + 48)]) := by
  rw [kernelVprintf, vprintf_of_neg hneg hl]
  rfl

lemma tlibcVprintf_of_neg (buffer : ℕ → UInt8) (more : List Arg) :
    tlibcVprintf buffer [char '%', letter] (.int i :: more) = some (more, [toChar (i + 48)]) := by
  rw [tlibcVprintf, vprintf_of_neg hneg hl, putBuffer, if_pos (Nat.zero_lt_succ _), Option.bind_some, vprintf,
    Option.map_some]
  simp

omit hl in
lemma singleton_ne_decimal (c : UInt8) : [c] ≠ decimal i := by
  have hdigits : (digits 10 i.natAbs).length ≠ 0 := by
    rw [digits, if_neg (by omega), List.length_reverse, Ne, List.length_eq_zero_iff, Nat.digits_eq_nil_iff_eq_zero]
    omega
  intro h
  have hlen := congrArg List.length h
  rw [decimal, if_pos hneg, List.length_append, List.length_map, List.length_singleton, List.length_singleton] at hlen
  omega

omit hl in
lemma ne_of_one_byte {out : Option (List Arg × List UInt8)} {more : List Arg} {c : UInt8}
    (hout : out = some (more, [c])) : out ≠ some (more, decimal i) := by
  rw [hout]
  intro h
  exact singleton_ne_decimal hneg c (Prod.mk.inj (Option.some.inj h)).2

end Negative

/-- For every negative number and in every format: one byte is put out, and neither function prints the number. -/
theorem negative_not_printed (i : ℤ) (hneg : i < 0) (letter : UInt8)
    (hl : letter = char 'd' ∨ letter = char 'i') :
    (∀ (σ : Type) (emit : σ → UInt8 → Option σ) fmt args out,
      vprintf emit (char '%' :: letter :: fmt) (.int i :: args) out =
        (emit out (toChar (i + 48))).bind (vprintf emit fmt args)) ∧
    ¬ KernelPrintsInt letter i ∧ ¬ TlibcPrintsInt letter i := by
  refine ⟨fun σ emit fmt args out => vprintf_of_neg hneg hl emit fmt args out, fun h => ?_, fun h => ?_⟩
  · exact ne_of_one_byte hneg (kernelVprintf_of_neg hneg hl []) (h [])
  · exact ne_of_one_byte hneg (tlibcVprintf_of_neg hneg hl (fun _ => 0) []) (h _ [])

theorem negative_not_printed_min : ¬ KernelPrintsInt (char 'd') (-2 ^ 31) ∧ ¬ TlibcPrintsInt (char 'd') (-2 ^ 31) :=
  (negative_not_printed (-2 ^ 31) (by decide) (char 'd') (Or.inl rfl)).2

/-- For `-1`, the character before the digit zero is printed. -/
theorem not_printed_minus_one : kernelVprintf [char '%', char 'i'] [.int (-1)] = some ([], [char '/']) ∧
    tlibcVprintf (fun _ => 0) [char '%', char 'i'] [.int (-1)] = some ([], [char '/']) ∧
    ¬ (KernelPrintsInt (char 'i') (-1) ∧ TlibcPrintsInt (char 'i') (-1)) := by
  have hl : char 'i' = char 'd' ∨ char 'i' = char 'i' := Or.inr rfl
  refine ⟨kernelVprintf_of_neg (by decide) hl [], tlibcVprintf_of_neg (by decide) hl _ [], fun h => ?_⟩
  exact ne_of_one_byte (by decide) (kernelVprintf_of_neg (by decide) hl []) (h.1 [])

end TetraOS.Console
