import Mathlib.Algebra.BigOperators.Group.List.Basic
import Mathlib.Data.List.Pairwise
import Mathlib.Tactic.Ring

/-! Blocks that are cut one after the other from the start of a free space, each behind a header. The newest block is
the first of the list. -/

namespace TetraOS.Library.BumpBlocks

variable (start header : ℕ)

def taken (blocks : List (ℕ × ℕ)) : ℕ := (blocks.map fun b => b.2 + header).sum

def Consecutive : List (ℕ × ℕ) → Prop
  | [] => True
  | b :: blocks => b.1 = start + header + taken header blocks ∧ Consecutive blocks

variable {start header} {b c : ℕ × ℕ} {blocks : List (ℕ × ℕ)}

@[simp] lemma taken_nil : taken header [] = 0 := rfl

@[simp] lemma taken_cons (b : ℕ × ℕ) (blocks : List (ℕ × ℕ)) :
    taken header (b :: blocks) = b.2 + header + taken header blocks := by
  rw [taken, List.map_cons, List.sum_cons, taken]

lemma length_le_taken (blocks : List (ℕ × ℕ)) : header * blocks.length ≤ taken header blocks := by
  induction blocks with
  | nil => rfl
  | cons b blocks ih =>
    rw [List.length_cons, taken_cons, Nat.mul_succ]
    omega

lemma taken_mod {k : ℕ} (hheader : header % k = 0) (h : ∀ b ∈ blocks, b.2 % k = 0) : taken header blocks % k = 0 := by
  induction blocks with
  | nil => rw [taken_nil, Nat.zero_mod]
  | cons b blocks ih =>
    have hrest := ih fun c hc => h c (List.mem_cons_of_mem b hc)
    rw [taken_cons, Nat.add_mod, Nat.add_mod b.2, h b List.mem_cons_self, hheader, hrest, Nat.zero_mod, Nat.zero_mod]

namespace Consecutive

lemma address (h : Consecutive start header blocks) {later earlier : List (ℕ × ℕ)}
    (hb : blocks = later ++ b :: earlier) : b.1 = start + header + taken header earlier := by
  subst hb
  induction later with
  | nil => exact h.1
  | cons c later ih => exact ih h.2

lemma apart (h : Consecutive start header blocks) :
    (∀ b ∈ blocks, start + header ≤ b.1 ∧ b.1 + b.2 ≤ start + taken header blocks) ∧
      blocks.Pairwise fun b c => c.1 + c.2 + header ≤ b.1 := by
  induction blocks with
  | nil => exact ⟨fun _ hb => absurd hb List.not_mem_nil, List.Pairwise.nil⟩
  | cons b blocks ih =>
    obtain ⟨hb, hrest⟩ := h
    obtain ⟨hbelow, hordered⟩ := ih hrest
    rw [taken_cons]
    refine ⟨?_, List.pairwise_cons.mpr ⟨fun c hc => ?_, hordered⟩⟩
    · intro c hc
      rcases List.mem_cons.mp hc with rfl | hc
      · omega
      · have := hbelow c hc
        omega
    · have := hbelow c hc
      omega

lemma apart_of_ne (h : Consecutive start header blocks) (hb : b ∈ blocks) (hc : c ∈ blocks) (hne : b ≠ c) :
    b.1 + b.2 + header ≤ c.1 ∨ c.1 + c.2 + header ≤ b.1 := by
  have hdown : blocks.Pairwise fun b c : ℕ × ℕ => b ≠ c → b.1 + b.2 + header ≤ c.1 ∨ c.1 + c.2 + header ≤ b.1 :=
    h.apart.2.imp fun hbc _ => Or.inr hbc
  have hup : blocks.Pairwise (flip fun b c : ℕ × ℕ => b ≠ c → b.1 + b.2 + header ≤ c.1 ∨ c.1 + c.2 + header ≤ b.1) :=
    h.apart.2.imp fun hbc _ => Or.inl hbc
  exact List.Pairwise.forall_of_forall_of_flip (fun _ _ hself => absurd rfl hself) hdown hup hb hc hne

end Consecutive

end TetraOS.Library.BumpBlocks
