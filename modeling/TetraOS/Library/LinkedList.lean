import Mathlib.Data.List.GetD
import Mathlib.Data.List.Nodup
import Mathlib.Logic.Function.Iterate

/-! Doubly linked lists in a memory: items with a link to the next and to the one before, and a null. Reading a link may
fault. -/

namespace TetraOS.Library.LinkedList

variable {α : Type} (null : α) (next prev : α → Option α)

/-- From its first item on, behind `before`, the list has these items. -/
def Linked : α → List α → Prop
  | _, [] => True
  | before, a :: items => a ≠ null ∧ prev a = some before ∧ next a = some (items.headD null) ∧ Linked a items

/-- The walk to the item without a next one. The bound is for walks that do not end. -/
def last [DecidableEq α] : ℕ → α → Option α
  | 0, _ => none
  | n + 1, a => do
    let b ← next a
    if b = null then some a else last n b

/-- The walk to the first item that passes the test, which does not look for the end of the list. -/
def search (test : α → Option Bool) : ℕ → α → Option α
  | 0, _ => none
  | n + 1, a => do
    if ← test a then some a else
    let b ← next a
    search test n b

section Walks

variable {null next prev} {next' prev' : α → Option α} {before a b : α} {items : List α}

lemma Linked.congr (h : Linked null next prev before items) (hnext : ∀ a ∈ items, next' a = next a)
    (hprev : ∀ a ∈ items, prev' a = prev a) : Linked null next' prev' before items := by
  induction items generalizing before with
  | nil => trivial
  | cons a items ih =>
    obtain ⟨hnull, hp, hn, hrest⟩ := h
    refine ⟨hnull, ?_, ?_, ih hrest (fun b hb => hnext b (List.mem_cons_of_mem a hb))
      (fun b hb => hprev b (List.mem_cons_of_mem a hb))⟩
    · rw [hprev a List.mem_cons_self, hp]
    · rw [hnext a List.mem_cons_self, hn]

lemma Linked.ne_null (h : Linked null next prev before items) : ∀ a ∈ items, a ≠ null := by
  induction items generalizing before with
  | nil => exact fun _ ha => absurd ha List.not_mem_nil
  | cons a items ih =>
    intro b hb
    rcases List.mem_cons.mp hb with rfl | hb
    · exact h.1
    · exact ih h.2.2.2 b hb

lemma Linked.headD_eq_null (h : Linked null next prev before items) : items.headD null = null ↔ items = [] := by
  cases items with
  | nil => simp
  | cons a items => simp [h.1]

lemma Linked.unique {before' : α} {items' : List α} (h : Linked null next prev before items)
    (h' : Linked null next prev before' items') (hhead : items.headD null = items'.headD null) : items = items' := by
  induction items generalizing before before' items' with
  | nil => exact (h'.headD_eq_null.mp hhead.symm).symm
  | cons a items ih =>
    cases items' with
    | nil => exact absurd hhead h.1
    | cons b items' =>
      obtain rfl : a = b := hhead
      have hnext := h.2.2.1.symm.trans h'.2.2.1
      rw [ih h.2.2.2 h'.2.2.2 (Option.some.inj hnext)]

lemma Linked.append_right {before : α} {items rest : List α} (h : Linked null next prev before (items ++ rest)) :
    ∃ before', Linked null next prev before' rest := by
  induction items generalizing before with
  | nil => exact ⟨before, h⟩
  | cons a items ih => exact ih h.2.2.2

lemma Linked.nodup (h : Linked null next prev before items) : items.Nodup := by
  induction items generalizing before with
  | nil => exact List.nodup_nil
  | cons a items ih =>
    refine List.nodup_cons.mpr ⟨fun hmem => ?_, ih h.2.2.2⟩
    obtain ⟨l, r, rfl⟩ := List.append_of_mem hmem
    obtain ⟨before', hrest⟩ := h.2.2.2.append_right
    have heq := h.unique hrest rfl
    have hlen := congrArg List.length heq
    simp only [List.length_cons, List.length_append] at hlen
    omega

lemma Linked.ne_of_mem_dropLast (h : Linked null next prev before items) (ha : a ∈ items.dropLast)
    (hb : items.getLast? = some b) : a ≠ b := by
  rintro rfl
  have hnodup := h.nodup
  rw [← List.dropLast_append_getLast? a hb] at hnodup
  exact (List.nodup_append.mp hnodup).2.2 a ha a (List.mem_singleton_self a) rfl

lemma Linked.follow (h : Linked null next prev before items) (k : ℕ) (hk : k ≤ items.length) :
    (fun o : Option α => o.bind next)^[k] (some (items.headD null)) = some (items.getD k null) := by
  induction items generalizing before k with
  | nil =>
    obtain rfl : k = 0 := Nat.le_zero.mp hk
    rfl
  | cons a items ih =>
    cases k with
    | zero => rfl
    | succ k =>
      rw [Function.iterate_succ_apply, List.headD_cons, Option.bind_some, h.2.2.1]
      exact ih h.2.2.2 k (Nat.le_of_succ_le_succ hk)

lemma Linked.prev_eq (h : Linked null next prev before items) (k : ℕ) (hk : k < items.length) :
    prev items[k] = (before :: items)[k]? := by
  induction items generalizing before k with
  | nil => exact absurd hk (Nat.not_lt_zero k)
  | cons a items ih =>
    cases k with
    | zero => exact h.2.1
    | succ k => exact ih h.2.2.2 k (Nat.lt_of_succ_lt_succ hk)

lemma Linked.snoc (h : Linked null next prev before items) (hb : b ≠ null) (hnext_b : next' b = some null)
    (hprev_b : prev' b = some (items.getLastD before))
    (hlast : ∀ a, items.getLast? = some a → next' a = some b)
    (hnext : ∀ a ∈ items.dropLast, next' a = next a) (hprev : ∀ a ∈ items, prev' a = prev a) :
    Linked null next' prev' before (items ++ [b]) := by
  induction items generalizing before with
  | nil => exact ⟨hb, hprev_b, hnext_b, trivial⟩
  | cons a items ih =>
    obtain ⟨hnull, hp, hn, hrest⟩ := h
    refine ⟨hnull, ?_, ?_, ?_⟩
    · rw [hprev a List.mem_cons_self, hp]
    · cases items with
      | nil => exact hlast a rfl
      | cons c items =>
        rw [hnext a (by simp), hn]
        rfl
    · refine ih hrest ?_ (fun c hc => hlast c ?_) (fun c hc => hnext c ?_) fun c hc =>
        hprev c (List.mem_cons_of_mem a hc)
      · rw [hprev_b, List.getLastD_cons]
      · rw [List.getLast?_cons, hc]
        rfl
      · cases items with
        | nil => cases hc
        | cons d items => exact List.mem_cons_of_mem a hc

lemma Linked.last_eq [DecidableEq α] (h : Linked null next prev before (a :: items)) (extra : ℕ) :
    last null next (items.length + 1 + extra) a = some (items.getLastD a) := by
  induction items generalizing before a with
  | nil =>
    rw [List.length_nil, show 0 + 1 + extra = extra + 1 by omega, last, h.2.2.1]
    simp
  | cons b items ih =>
    have hb := h.2.2.2.1
    rw [List.length_cons, show items.length + 1 + 1 + extra = items.length + 1 + extra + 1 by omega, last, h.2.2.1,
      List.getLastD_cons]
    simp only [List.headD_cons, Option.bind_eq_bind, Option.bind_some, if_neg hb]
    exact ih h.2.2.2

lemma last_mono [DecidableEq α] {n : ℕ} (h : last null next n a = some b) (extra : ℕ) :
    last null next (n + extra) a = some b := by
  induction n generalizing a with
  | zero => cases h
  | succ n ih =>
    rw [last] at h
    obtain ⟨c, hc, h⟩ := Option.bind_eq_some_iff.mp h
    rw [show n + 1 + extra = n + extra + 1 by omega, last, hc, Option.bind_eq_bind, Option.bind_some]
    split at h
    · rename_i hnull
      rw [if_pos hnull, h]
    · rename_i hnull
      rw [if_neg hnull]
      exact ih h

lemma Linked.last_of_some [DecidableEq α] (h : Linked null next prev before (a :: items)) {n : ℕ}
    (hl : last null next n a = some b) : b = items.getLastD a := by
  have hlong := last_mono hl (items.length + 1)
  rw [Nat.add_comm, h.last_eq n] at hlong
  exact (Option.some.inj hlong).symm

lemma Linked.search_eq (h : Linked null next prev before items) {test : α → Option Bool} {p : α → Bool}
    (htest : ∀ a ∈ items, test a = some (p a)) (hsome : ∃ a ∈ items, p a = true) (extra : ℕ) :
    search next test (items.length + extra) (items.headD null) = items.find? p := by
  induction items generalizing before with
  | nil =>
    obtain ⟨a, ha, _⟩ := hsome
    cases ha
  | cons a items ih =>
    rw [List.length_cons, show items.length + 1 + extra = items.length + extra + 1 by omega, search, List.headD_cons,
      htest a List.mem_cons_self, List.find?_cons]
    cases hp : p a with
    | true => rfl
    | false =>
      obtain ⟨b, hb, hpb⟩ := hsome
      have hrest : ∃ b ∈ items, p b = true := by
        rcases List.mem_cons.mp hb with rfl | hb
        · rw [hp] at hpb
          cases hpb
        · exact ⟨b, hb, hpb⟩
      simp only [Option.bind_eq_bind, Option.bind_some, h.2.2.1, Bool.false_eq_true, if_false]
      exact ih h.2.2.2 (fun c hc => htest c (List.mem_cons_of_mem a hc)) hrest

end Walks

end TetraOS.Library.LinkedList
