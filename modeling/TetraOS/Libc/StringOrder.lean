import TetraOS.Console.LineInput

/-! `strcmp` of the library (tlibc/string.c): the order of a dictionary over bytes, on strings that end with a zero. -/

namespace TetraOS.Libc

open Console

structure TextAt (chars : ℕ → Option UInt8) (index : ℕ) (text : List UInt8) : Prop where
  characters : ∀ i (hi : i < text.length), chars (index + i) = some text[i]
  nonzero : ∀ c ∈ text, c ≠ 0
  ended : chars (index + text.length) = some 0

lemma TextAt.of_notMem {chars : ℕ → Option UInt8} {index : ℕ} {text : List UInt8}
    (hchars : ∀ i (hi : i < text.length), chars (index + i) = some text[i]) (hzero : 0 ∉ text)
    (hend : chars (index + text.length) = some 0) : TextAt chars index text :=
  ⟨hchars, fun _ hc => ne_of_mem_of_not_mem hc hzero, hend⟩

def orderOf (a b : List UInt8) : ℤ := if a < b then -1 else if a = b then 0 else 1

lemma orderOf_eq_zero_iff {a b : List UInt8} : orderOf a b = 0 ↔ a = b := by
  rw [orderOf]
  by_cases hlt : a < b
  · have hne : a ≠ b := fun h => List.lt_irrefl b (h ▸ hlt)
    simp [hlt, hne]
  · simp [hlt]

section Texts

variable {chars : ℕ → Option UInt8} {index : ℕ} {c : UInt8} {text : List UInt8}

lemma TextAt.nil (h : TextAt chars index []) : chars index = some 0 := h.ended

lemma TextAt.head (h : TextAt chars index (c :: text)) : chars index = some c ∧ c ≠ 0 :=
  ⟨h.characters 0 (Nat.zero_lt_succ _), h.nonzero c List.mem_cons_self⟩

lemma TextAt.tail (h : TextAt chars index (c :: text)) : TextAt chars (index + 1) text where
  characters i hi := by
    have hc := h.characters (i + 1) (Nat.succ_lt_succ hi)
    rwa [← Nat.add_assoc, Nat.add_right_comm] at hc
  nonzero d hd := h.nonzero d (List.mem_cons_of_mem c hd)
  ended := by
    have hend := h.ended
    rwa [List.length_cons, ← Nat.add_assoc, Nat.add_right_comm] at hend

lemma orderOf_cons_self (c : UInt8) (a b : List UInt8) : orderOf (c :: a) (c :: b) = orderOf a b := by
  simp only [orderOf, List.cons_lt_cons_iff, UInt8.lt_irrefl, true_and, false_or, List.cons.injEq]

lemma orderOf_cons_ne {c d : UInt8} (hne : c ≠ d) (a b : List UInt8) :
    orderOf (c :: a) (d :: b) = if c < d then -1 else 1 := by
  simp only [orderOf, List.cons_lt_cons_iff, hne, false_and, or_false, List.cons.injEq, if_false]

end Texts

lemma strcmp_eq {s1 s2 : ℕ → Option UInt8} {index fuel : ℕ} {a b : List UInt8} (ha : TextAt s1 index a)
    (hb : TextAt s2 index b) (hfuel : min a.length b.length < fuel) :
    strcmp s1 s2 fuel index = some (orderOf a b) := by
  induction a generalizing b index fuel with
  | nil =>
    obtain ⟨fuel, rfl⟩ := Nat.exists_eq_succ_of_ne_zero (by omega : fuel ≠ 0)
    cases b with
    | nil =>
      rw [strcmp, ha.nil, hb.nil]
      rfl
    | cons d b =>
      obtain ⟨hd, hne⟩ := hb.head
      simp [strcmp, ha.nil, hd, hne, orderOf]
  | cons c a ih =>
    obtain ⟨fuel, rfl⟩ := Nat.exists_eq_succ_of_ne_zero (by omega : fuel ≠ 0)
    obtain ⟨hc, hc₀⟩ := ha.head
    cases b with
    | nil => simp [strcmp, hc, hc₀, hb.nil, orderOf]
    | cons d b =>
      obtain ⟨hd, hd₀⟩ := hb.head
      simp only [strcmp, hc, hd, Option.bind_eq_bind, Option.bind_some, if_pos (And.intro hc₀ hd₀)]
      by_cases hne : c = d
      · subst hne
        rw [if_neg (not_not.mpr rfl), orderOf_cons_self]
        rw [List.length_cons, List.length_cons] at hfuel
        exact ih ha.tail hb.tail (by omega)
      · rw [if_pos hne, orderOf_cons_ne hne]

/-- For all strings: `strcmp` ends, and its result says which of them comes first, or that they are the same. Swapping
them turns the result around. -/
theorem strcmp_orders (s1 s2 : ℕ → Option UInt8) (a b : List UInt8) (ha : TextAt s1 0 a) (hb : TextAt s2 0 b)
    (fuel : ℕ) (hfuel : min a.length b.length < fuel) : ∃ r, strcmp s1 s2 fuel 0 = some r ∧
      (r = -1 ↔ a < b) ∧ (r = 0 ↔ a = b) ∧ (r = 1 ↔ b < a) ∧ strcmp s2 s1 fuel 0 = some (-r) := by
  have hswap := strcmp_eq hb ha (by rwa [min_comm] at hfuel)
  refine ⟨orderOf a b, strcmp_eq ha hb hfuel, ?_⟩
  rw [hswap]
  by_cases hlt : a < b
  · have hnot : ¬ b < a := List.lt_asymm hlt
    have hne : a ≠ b := fun h => List.lt_irrefl b (h ▸ hlt)
    simp [orderOf, hlt, hnot, hne, hne.symm]
  · by_cases hgt : b < a
    · have hne : a ≠ b := fun h => hlt (h ▸ hgt)
      simp [orderOf, hlt, hgt, hne]
    · obtain rfl : a = b := List.le_antisymm hgt hlt
      simp [orderOf, hlt]

def charsOf (text : List Char) (i : ℕ) : Option UInt8 := some (char (text.getD i '\x00'))

/-- The comparison of the shell, for a line that starts like its command. -/
theorem strcmp_orders_pwd : ∃ r,
    strcmp (charsOf ['p', 'w', 'd', 'x']) (charsOf ['p', 'w', 'd']) 4 0 = some r ∧ r = 1 := by
  have hline : TextAt (charsOf ['p', 'w', 'd', 'x']) 0 (['p', 'w', 'd', 'x'].map char) :=
    .of_notMem (by decide) (by decide) (by decide)
  have hpwd : TextAt (charsOf ['p', 'w', 'd']) 0 (['p', 'w', 'd'].map char) :=
    .of_notMem (by decide) (by decide) (by decide)
  obtain ⟨r, hr, _, _, hgreater, _⟩ := strcmp_orders _ _ _ _ hline hpwd 4 (by decide)
  exact ⟨r, hr, hgreater.mpr (by decide)⟩

end TetraOS.Libc
