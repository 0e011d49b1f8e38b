import TetraOS.Library.ByteMemory

/-! Programs over a memory whose addresses are translated, the accesses that they make, and rules for where these lie.
A program is stuck at an address without a translation. -/

namespace TetraOS.Library.MemoryProgram

open ByteMemory

inductive Program (α : Type) : Type where
  | done (a : α)
  | fail
  | load (n address : ℕ) (next : ℕ → Program α)
  | store (n address value : ℕ) (next : Program α)

structure Access where
  address : ℕ
  length : ℕ

abbrev Translation := Memory → ℕ → Option ℕ

namespace Program

variable {α β : Type}

def bind : Program α → (α → Program β) → Program β
  | done a, f => f a
  | fail, _ => fail
  | load n a next, f => load n a fun v => (next v).bind f
  | store n a v next, f => store n a v (next.bind f)

instance : Monad Program where
  pure := done
  bind := bind

def loop (body : ℕ → Program Unit) : ℕ → Program Unit
  | 0 => done ()
  | n + 1 => (loop body n).bind fun _ => body n

variable (tr : Translation)

def run : Program α → Memory → Option (α × Memory)
  | done a, m => some (a, m)
  | fail, _ => none
  | load n a next, m => (tr m a).bind fun p => (next (ByteMemory.load m n p)).run m
  | store n a v next, m => (tr m a).bind fun p => next.run (ByteMemory.store m n p v)

lemma run_bind (x : Program α) (f : α → Program β) (m : Memory) :
    (x.bind f).run tr m = (x.run tr m).bind fun r => (f r.1).run tr r.2 := by
  induction x generalizing m with
  | done a => rfl
  | fail => rfl
  | load n a next ih =>
    rw [bind, run, run, Option.bind_assoc]
    exact congrArg _ (funext fun p => ih _ m)
  | store n a v next ih =>
    rw [bind, run, run, Option.bind_assoc]
    exact congrArg _ (funext fun p => ih _)

/-- The accesses in their order, with the one that the program is stuck at. -/
def accesses : Program α → Memory → List Access
  | done _, _ => []
  | fail, _ => []
  | load n a next, m => ⟨a, n⟩ :: ((tr m a).map fun p => (next (ByteMemory.load m n p)).accesses m).getD []
  | store n a v next, m => ⟨a, n⟩ :: ((tr m a).map fun p => next.accesses (ByteMemory.store m n p v)).getD []

def Stays (ok : Access → Prop) : Program α → Memory → (α → Memory → Prop) → Prop
  | done a, m, Q => Q a m
  | fail, _, _ => False
  | load n a next, m, Q => ok ⟨a, n⟩ ∧ ∃ p, tr m a = some p ∧ (next (ByteMemory.load m n p)).Stays ok m Q
  | store n a v next, m, Q => ok ⟨a, n⟩ ∧ ∃ p, tr m a = some p ∧ next.Stays ok (ByteMemory.store m n p v) Q

section Rules

variable {tr} {ok ok' : Access → Prop} {x : Program α} {f : α → Program β} {m : Memory} {Q Q' : α → Memory → Prop}

lemma Stays.mono (h : x.Stays tr ok m Q) (hok : ∀ e, ok e → ok' e) (hQ : ∀ a m', Q a m' → Q' a m') :
    x.Stays tr ok' m Q' := by
  induction x generalizing m with
  | done a => exact hQ a m h
  | fail => exact h
  | load n a next ih =>
    obtain ⟨ha, p, hp, h⟩ := h
    exact ⟨hok _ ha, p, hp, ih _ h⟩
  | store n a v next ih =>
    obtain ⟨ha, p, hp, h⟩ := h
    exact ⟨hok _ ha, p, hp, ih h⟩

lemma Stays.bind {Q : β → Memory → Prop} (h : x.Stays tr ok m fun a m' => (f a).Stays tr ok m' Q) :
    (x.bind f).Stays tr ok m Q := by
  induction x generalizing m with
  | done a => exact h
  | fail => exact h
  | load n a next ih =>
    obtain ⟨ha, p, hp, h⟩ := h
    exact ⟨ha, p, hp, ih _ h⟩
  | store n a v next ih =>
    obtain ⟨ha, p, hp, h⟩ := h
    exact ⟨ha, p, hp, ih h⟩

lemma stays_bind {Q : β → Memory → Prop} :
    (x.bind f).Stays tr ok m Q ↔ x.Stays tr ok m fun a m' => (f a).Stays tr ok m' Q := by
  refine ⟨fun h => ?_, Stays.bind⟩
  induction x generalizing m with
  | done a => exact h
  | fail => exact h
  | load n a next ih =>
    obtain ⟨ha, p, hp, h⟩ := h
    exact ⟨ha, p, hp, ih _ h⟩
  | store n a v next ih =>
    obtain ⟨ha, p, hp, h⟩ := h
    exact ⟨ha, p, hp, ih h⟩

lemma Stays.loop {body : ℕ → Program Unit} {n : ℕ} {I : ℕ → Memory → Prop} {Q : Unit → Memory → Prop} (hstart : I 0 m)
    (hbody : ∀ i < n, ∀ m', I i m' → (body i).Stays tr ok m' fun _ => I (i + 1)) (hQ : ∀ m', I n m' → Q () m') :
    (Program.loop body n).Stays tr ok m Q := by
  induction n generalizing Q with
  | zero => exact hQ m hstart
  | succ n ih =>
    apply Stays.bind
    refine ih (fun i hi => hbody i (by omega)) fun m' hm' => ?_
    exact (hbody n (by omega) m' hm').mono (fun _ => id) fun _ => hQ

lemma Stays.run (h : x.Stays tr ok m Q) : ∃ a m', x.run tr m = some (a, m') ∧ Q a m' := by
  induction x generalizing m with
  | done a => exact ⟨a, m, rfl, h⟩
  | fail => exact h.elim
  | load n a next ih =>
    obtain ⟨_, p, hp, h⟩ := h
    rw [Program.run, hp]
    exact ih _ h
  | store n a v next ih =>
    obtain ⟨_, p, hp, h⟩ := h
    rw [Program.run, hp]
    exact ih h

lemma Stays.accesses (h : x.Stays tr ok m Q) : ∀ e ∈ x.accesses tr m, ok e := by
  induction x generalizing m with
  | done a => exact fun _ he => absurd he List.not_mem_nil
  | fail => exact h.elim
  | load n a next ih =>
    obtain ⟨ha, p, hp, h⟩ := h
    rw [Program.accesses, hp]
    exact List.forall_mem_cons.mpr ⟨ha, ih _ h⟩
  | store n a v next ih =>
    obtain ⟨ha, p, hp, h⟩ := h
    rw [Program.accesses, hp]
    exact List.forall_mem_cons.mpr ⟨ha, ih h⟩

lemma Stays.transfer {tr' : Translation} {I : Memory → Prop} (h : x.Stays tr ok m Q) (hm : I m)
    (hagree : ∀ m a n, I m → ok ⟨a, n⟩ → tr' m a = tr m a)
    (hstore : ∀ m a n p v, I m → ok ⟨a, n⟩ → tr m a = some p → I (ByteMemory.store m n p v)) :
    x.Stays tr' ok m Q := by
  induction x generalizing m with
  | done a => exact h
  | fail => exact h
  | load n a next ih =>
    obtain ⟨ha, p, hp, h⟩ := h
    exact ⟨ha, p, (hagree m a n hm ha).trans hp, ih _ h hm⟩
  | store n a v next ih =>
    obtain ⟨ha, p, hp, h⟩ := h
    exact ⟨ha, p, (hagree m a n hm ha).trans hp, ih h (hstore m a n p v hm ha hp)⟩

end Rules

section Systems

variable {σ : Type} (loads : σ → ℕ → ℕ → Option ℕ) (stores : σ → ℕ → ℕ → ℕ → Option σ)

def runOn : Program α → σ → Option (α × σ)
  | done a, s => some (a, s)
  | fail, _ => none
  | load n a next, s => (loads s n a).bind fun v => (next v).runOn s
  | store n a v next, s => (stores s n a v).bind fun s => next.runOn s

def flat : Translation := fun _ a => some a

/-- The state makes the accesses that are `ok` as a memory does, and no others. -/
structure Implements (ok : Access → Prop) (R : σ → Memory → Prop) : Prop where
  load : ∀ {s m a n}, R s m → ok ⟨a, n⟩ → loads s n a = some (ByteMemory.load m n a)
  store : ∀ {s m a n} v, R s m → ok ⟨a, n⟩ → ∃ s', stores s n a v = some s' ∧ R s' (ByteMemory.store m n a v)
  loadFault : ∀ {s m a n}, R s m → ¬ ok ⟨a, n⟩ → loads s n a = none
  storeFault : ∀ {s m a n} v, R s m → ¬ ok ⟨a, n⟩ → stores s n a v = none

variable {loads stores} {ok : Access → Prop} {R : σ → Memory → Prop} {s s' : σ} {m : Memory} {a : α}
    {x : Program α} {Q : α → Memory → Prop}

lemma Implements.run (h : Implements loads stores ok R) (hR : R s m) (hx : x.Stays flat ok m Q) :
    ∃ a s' m', x.runOn loads stores s = some (a, s') ∧ R s' m' ∧ Q a m' := by
  induction x generalizing s m with
  | done a => exact ⟨a, s, m, rfl, hR, hx⟩
  | fail => exact hx.elim
  | load n a next ih =>
    obtain ⟨ha, p, hp, hx⟩ := hx
    obtain rfl := Option.some.inj hp
    rw [runOn, h.load hR ha]
    exact ih _ hR hx
  | store n a v next ih =>
    obtain ⟨ha, p, hp, hx⟩ := hx
    obtain rfl := Option.some.inj hp
    obtain ⟨s', hs', hR'⟩ := h.store v hR ha
    rw [runOn, hs']
    exact ih hR' hx

lemma Implements.stays (h : Implements loads stores ok R) (hR : R s m) (hx : x.runOn loads stores s = some (a, s')) :
    x.Stays flat ok m fun b m' => b = a ∧ R s' m' := by
  induction x generalizing s m with
  | done b =>
    obtain ⟨rfl, rfl⟩ := Prod.mk.inj (Option.some.inj hx)
    exact ⟨rfl, hR⟩
  | fail => cases hx
  | load n b next ih =>
    by_cases hb : ok ⟨b, n⟩
    · rw [runOn, h.load hR hb] at hx
      exact ⟨hb, b, rfl, ih _ hR hx⟩
    · rw [runOn, h.loadFault hR hb] at hx
      cases hx
  | store n b v next ih =>
    by_cases hb : ok ⟨b, n⟩
    · obtain ⟨t, ht, hR'⟩ := h.store v hR hb
      rw [runOn, ht] at hx
      exact ⟨hb, b, rfl, ih hR' hx⟩
    · rw [runOn, h.storeFault v hR hb] at hx
      cases hx

lemma Implements.returns_iff (h : Implements loads stores ok R) (hR : R s m) :
    (∃ r, x.runOn loads stores s = some r) ↔ x.Stays flat ok m fun _ _ => True := by
  constructor
  · rintro ⟨⟨a, s'⟩, hx⟩
    exact (h.stays hR hx).mono (fun _ => id) fun _ _ _ => trivial
  · intro hx
    obtain ⟨a, s', _, hrun, _⟩ := h.run hR hx
    exact ⟨(a, s'), hrun⟩

end Systems

end Program

end TetraOS.Library.MemoryProgram
