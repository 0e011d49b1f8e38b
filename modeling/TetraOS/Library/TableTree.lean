import Mathlib.Data.List.Infix
import Mathlib.Tactic

/-! Trees of tables stored by reference. A table is a node whose slots hold references to further
nodes, and a path of indices is followed from a root. As long as no two paths of tables lead to the
same node, setting one slot changes exactly the paths that run through it. -/

namespace TetraOS.Library.TableTree

variable {ν ι : Type*}

def walk (slot : ν → ι → Option ν) (r : ν) (p : List ι) : Option ν := p.foldlM slot r

section Walk

variable {slot slot' : ν → ι → Option ν} {r : ν}

@[simp] lemma walk_nil : walk slot r [] = some r := rfl

@[simp] lemma walk_cons (i : ι) (p : List ι) :
    walk slot r (i :: p) = (slot r i).bind fun t => walk slot t p := rfl

lemma walk_append (p q : List ι) : walk slot r (p ++ q) = (walk slot r p).bind fun t => walk slot t q := by
  simp [walk, List.foldlM_append]

lemma walk_concat (p : List ι) (i : ι) :
    walk slot r (p ++ [i]) = (walk slot r p).bind fun t => slot t i := by
  simp [walk_append]

end Walk

def Inside (Node : List ι → Prop) (q : List ι) : Prop := ∀ p i, p ++ [i] <+: q → Node p

lemma Inside.of_prefix {Node : List ι → Prop} {p q : List ι} (hq : Inside Node q) (h : p <+: q) :
    Inside Node p := fun p' i hp => hq p' i (hp.trans h)

def InjectiveOn (slot : ν → ι → Option ν) (r : ν) (Own : List ι → Prop) : Prop :=
  ∀ p q t, Own p → Own q → walk slot r p = some t → walk slot r q = some t → p = q

lemma walk_congr {slot slot' : ν → ι → Option ν} {r : ν} {Node : List ι → Prop} {q : List ι}
    (h : ∀ p t i, Node p → walk slot r p = some t → slot' t i = slot t i) (hq : Inside Node q) :
    walk slot' r q = walk slot r q := by
  induction q using List.reverseRecOn with
  | nil => rfl
  | append_singleton q j ih =>
    rw [walk_concat, walk_concat, ih (hq.of_prefix (List.prefix_append q [j]))]
    cases hu : walk slot r q with
    | none => rfl
    | some u => exact h q u j (hq q j (List.prefix_refl _)) hu

structure Linked (slot slot' : ν → ι → Option ν) (r : ν) (Node : List ι → Prop) (p : List ι) (i : ι)
    (t n : ν) : Prop where
  node : Node p
  table : walk slot r p = some t
  entry : slot' t i = some n
  frame : ∀ q u j, Node q → walk slot r q = some u → u ≠ t ∨ j ≠ i → slot' u j = slot u j

namespace Linked

variable {slot slot' : ν → ι → Option ν} {r : ν} {Node Own : List ι → Prop} {p : List ι} {i : ι} {t n : ν}

lemma walk_of_not_prefix (h : Linked slot slot' r Node p i t n) (hi : InjectiveOn slot r Node)
    {q : List ι} (hq : Inside Node q) (hp : ¬ p ++ [i] <+: q) : walk slot' r q = walk slot r q := by
  induction q using List.reverseRecOn with
  | nil => rfl
  | append_singleton q j ih =>
    have hpre : q <+: q ++ [j] := List.prefix_append q [j]
    rw [walk_concat, walk_concat, ih (hq.of_prefix hpre) (fun hh => hp (hh.trans hpre))]
    cases hu : walk slot r q with
    | none => rfl
    | some u =>
      have hn : Node q := hq q j (List.prefix_refl _)
      refine h.frame q u j hn hu ?_
      by_contra hc
      push Not at hc
      obtain ⟨rfl, rfl⟩ := hc
      obtain rfl := hi q p u hn h.node hu h.table
      exact hp (List.prefix_refl _)

lemma walk_table (h : Linked slot slot' r Node p i t n) (hi : InjectiveOn slot r Node)
    (hp : Inside Node p) : walk slot' r p = some t := by
  rw [h.walk_of_not_prefix hi hp, h.table]
  intro hh
  have hl := hh.length_le
  simp at hl

lemma walk_entry (h : Linked slot slot' r Node p i t n) (hi : InjectiveOn slot r Node)
    (hp : Inside Node p) : walk slot' r (p ++ [i]) = some n := by
  rw [walk_concat, h.walk_table hi hp, Option.bind_some, h.entry]

lemma walk_beyond (h : Linked slot slot' r Node p i t n) (hi : InjectiveOn slot r Node)
    (hp : Inside Node p) {j : ι} {q : List ι} (hn : slot' n j = none) :
    walk slot' r (p ++ [i] ++ j :: q) = none := by
  rw [walk_append, h.walk_entry hi hp, Option.bind_some, walk_cons, hn, Option.bind_none]

lemma walk_cases (h : Linked slot slot' r Node p i t n) (hi : InjectiveOn slot r Node)
    (hp : Inside Node p) {q : List ι} {u : ν} (hq : Inside Node q)
    (hstop : ∀ j rest, q = p ++ [i] ++ j :: rest → slot' n j = none) (hu : walk slot' r q = some u) :
    (q = p ++ [i] ∧ u = n) ∨ (¬ p ++ [i] <+: q ∧ walk slot r q = some u) := by
  by_cases hpre : p ++ [i] <+: q
  · obtain ⟨rest, rfl⟩ := hpre
    cases rest with
    | nil =>
      rw [List.append_nil, h.walk_entry hi hp, Option.some.injEq] at hu
      exact Or.inl ⟨List.append_nil _, hu.symm⟩
    | cons j rest =>
      rw [h.walk_beyond hi hp (hstop j rest rfl)] at hu
      cases hu
  · exact Or.inr ⟨hpre, h.walk_of_not_prefix hi hq hpre ▸ hu⟩

lemma walk_of_ne (h : Linked slot slot' r Node p i t n) (hi : InjectiveOn slot r Node) (hp : Inside Node p)
    (hnone : slot t i = none) {q : List ι} (hq : Inside Node q)
    (hstop : ∀ j rest, q = p ++ [i] ++ j :: rest → slot' n j = none) (hne : q ≠ p ++ [i]) :
    walk slot' r q = walk slot r q := by
  by_cases hpre : p ++ [i] <+: q
  · obtain ⟨rest, rfl⟩ := hpre
    cases rest with
    | nil => exact absurd (List.append_nil _) hne
    | cons j rest =>
      rw [h.walk_beyond hi hp (hstop j rest rfl), walk_append, walk_concat, h.table, Option.bind_some, hnone,
        Option.bind_none]
  · exact h.walk_of_not_prefix hi hq hpre

/-- Linking keeps the owned paths apart when the new reference is owned by nobody yet and nothing
is owned behind it. -/
lemma injectiveOn (h : Linked slot slot' r Node p i t n) (hi : InjectiveOn slot r Node)
    (hp : Inside Node p) (hown : InjectiveOn slot r Own) (hin : ∀ q, Own q → Inside Node q)
    (hfresh : Own (p ++ [i]) → ∀ q, Own q → walk slot r q ≠ some n)
    (hstop : ∀ j q, Own (p ++ [i] ++ j :: q) → slot' n j = none) : InjectiveOn slot' r Own := by
  have hcases : ∀ q u, Own q → walk slot' r q = some u → (q = p ++ [i] ∧ u = n) ∨ walk slot r q = some u := by
    intro q u hq hu
    have hs : ∀ j rest, q = p ++ [i] ++ j :: rest → slot' n j = none := by
      rintro j rest rfl
      exact hstop j rest hq
    exact (h.walk_cases hi hp (hin q hq) hs hu).imp_right And.right
  intro q₁ q₂ u h₁ h₂ hw₁ hw₂
  rcases hcases q₁ u h₁ hw₁ with ⟨rfl, rfl⟩ | hw₁
  · rcases hcases q₂ u h₂ hw₂ with ⟨rfl, _⟩ | hw₂
    · rfl
    · exact (hfresh h₁ q₂ h₂ hw₂).elim
  · rcases hcases q₂ u h₂ hw₂ with ⟨rfl, rfl⟩ | hw₂
    · exact (hfresh h₂ q₁ h₁ hw₁).elim
    · exact hown q₁ q₂ u h₁ h₂ hw₁ hw₂

end Linked

end TetraOS.Library.TableTree
