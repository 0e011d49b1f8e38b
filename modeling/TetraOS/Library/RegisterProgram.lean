import Mathlib.Logic.Relation

/-! Invariants and forward simulations of transition systems, where a step of the lower system is matched by any number
of steps of the upper one; and programs over the registers of a device that goes on by itself between their accesses. -/

namespace TetraOS.Library.Simulation

open Relation

variable {σ α : Type*}

def Invariant (step : σ → σ → Prop) (I : σ → Prop) : Prop := ∀ s s', I s → step s s' → I s'

lemma Invariant.run {step : σ → σ → Prop} {I : σ → Prop} {s s' : σ} (h : Invariant step I) (hs : I s)
    (hrun : ReflTransGen step s s') : I s' := by
  induction hrun with
  | refl => exact hs
  | tail _ hstep ih => exact h _ _ ih hstep

def Simulates (step : σ → σ → Prop) (spec : α → α → Prop) (R : σ → α → Prop) : Prop :=
  ∀ s s' a, R s a → step s s' → ∃ a', R s' a' ∧ ReflTransGen spec a a'

variable {step : σ → σ → Prop} {spec : α → α → Prop} {R : σ → α → Prop} {s s' : σ} {a : α}

lemma Simulates.run (h : Simulates step spec R) (hR : R s a) (hrun : ReflTransGen step s s') :
    ∃ a', R s' a' ∧ ReflTransGen spec a a' := by
  induction hrun with
  | refl => exact ⟨a, hR, .refl⟩
  | tail _ hstep ih =>
    obtain ⟨b, hb, hab⟩ := ih
    obtain ⟨c, hc, hbc⟩ := h _ _ b hb hstep
    exact ⟨c, hc, hab.trans hbc⟩

end TetraOS.Library.Simulation

namespace TetraOS.Library.RegisterProgram

open Relation Simulation

/-- `poll` reads a register again and again until its value is ready. -/
inductive Program (ρ β α : Type*) where
  | done (result : α)
  | read (r : ρ) (next : β → Program ρ β α)
  | write (r : ρ) (v : β) (next : Program ρ β α)
  | poll (r : ρ) (ready : β → Bool) (next : Program ρ β α)

structure Device (ρ β σ : Type*) where
  read : σ → ρ → β × σ
  write : σ → ρ → β → σ
  own : σ → σ → Prop

variable {ρ β σ α γ : Type*}

namespace Program

def bind : Program ρ β α → (α → Program ρ β γ) → Program ρ β γ
  | .done a, f => f a
  | .read r next, f => .read r fun v => (next v).bind f
  | .write r v next, f => .write r v (next.bind f)
  | .poll r ready next, f => .poll r ready (next.bind f)

end Program

variable (d : Device ρ β σ)

inductive Step : Program ρ β α × σ → Program ρ β α × σ → Prop
  | own {p s s'} : d.own s s' → Step (p, s) (p, s')
  | read {r next s} : Step (.read r next, s) (next (d.read s r).1, (d.read s r).2)
  | write {r v next s} : Step (.write r v next, s) (next, d.write s r v)
  | again {r ready next s} : ready (d.read s r).1 = false →
      Step (.poll r ready next, s) (.poll r ready next, (d.read s r).2)
  | pass {r ready next s} : ready (d.read s r).1 = true → Step (.poll r ready next, s) (next, (d.read s r).2)

lemma own_run {d : Device ρ β σ} {p : Program ρ β α} {s s' : σ} (h : ReflTransGen d.own s s') :
    ReflTransGen (Step d) (p, s) (p, s') := by
  induction h with
  | refl => exact .refl
  | tail _ hown ih => exact ih.tail (.own hown)

namespace Program

def PollFree : Program ρ β α → Prop
  | .done _ => True
  | .read _ next => ∀ v, (next v).PollFree
  | .write _ _ next => next.PollFree
  | .poll _ _ _ => False

variable {p p' : Program ρ β α} {d} {s s' : σ}

lemma PollFree.bind {f : α → Program ρ β γ} (h : p.PollFree) (hf : ∀ a, (f a).PollFree) : (p.bind f).PollFree := by
  induction p with
  | done a => exact hf a
  | read r next ih => exact fun v => ih v (h v)
  | write r v next ih => exact ih h
  | poll r ready next => exact h.elim

lemma PollFree.step (h : p.PollFree) (hstep : Step d (p, s) (p', s')) : p'.PollFree := by
  cases hstep with
  | own => exact h
  | read => exact h _
  | write => exact h
  | again => exact h.elim
  | pass => exact h.elim

lemma PollFree.run (h : p.PollFree) (hrun : ReflTransGen (Step d) (p, s) (p', s')) : p'.PollFree := by
  have hinv : Invariant (Step d) fun c : Program ρ β α × σ => c.1.PollFree := fun _ _ hc hstep => hc.step hstep
  exact hinv.run h hrun

lemma PollFree.exists_done (h : p.PollFree) (s : σ) : ∃ a s', ReflTransGen (Step d) (p, s) (.done a, s') := by
  induction p generalizing s with
  | done a => exact ⟨a, s, .refl⟩
  | read r next ih =>
    obtain ⟨a, s', hrun⟩ := ih (d.read s r).1 (h _) (d.read s r).2
    exact ⟨a, s', .head .read hrun⟩
  | write r v next ih =>
    obtain ⟨a, s', hrun⟩ := ih h (d.write s r v)
    exact ⟨a, s', .head .write hrun⟩
  | poll r ready next => exact h.elim

end Program

/-- A part of the state that the device leaves alone: the reads of a program do not change it and its writes change it
in a known way, where they are allowed. -/
structure View (d : Device ρ β σ) (τ : Type*) where
  view : σ → τ
  Reads : τ → ρ → β → Prop
  Allowed : τ → ρ → β → Prop
  write : τ → ρ → β → τ
  own {s s'} : d.own s s' → view s' = view s
  reads s r : Reads (view s) r (d.read s r).1
  read_view s r : view (d.read s r).2 = view s
  write_view {s r v} : Allowed (view s) r v → view (d.write s r v) = write (view s) r v

namespace View

variable {d} {τ : Type*} (V : View d τ)

/-- From `x` on, the view stays in `J`, and is in `Q a` when the program is done with `a`. -/
def Meets (J : τ → Prop) (Q : α → τ → Prop) : Program ρ β α → τ → Prop
  | .done a, x => J x ∧ Q a x
  | .read r next, x => J x ∧ ∀ v, V.Reads x r v → Meets J Q (next v) x
  | .write r v next, x => J x ∧ V.Allowed x r v ∧ Meets J Q next (V.write x r v)
  | .poll r ready next, x => J x ∧ ∀ v, V.Reads x r v → ready v = true → Meets J Q next x

variable {V} {J : τ → Prop} {Q : α → τ → Prop} {p p' : Program ρ β α} {s s' : σ} {x : τ}

lemma Meets.inv (h : V.Meets J Q p x) : J x := by
  cases p with
  | done a => exact h.1
  | read r next => exact h.1
  | write r v next => exact h.1
  | poll r ready next => exact h.1

lemma Meets.step (h : V.Meets J Q p (V.view s)) (hstep : Step d (p, s) (p', s')) : V.Meets J Q p' (V.view s') := by
  cases hstep with
  | own hown => exact V.own hown ▸ h
  | @read r next =>
    rw [V.read_view]
    exact h.2 _ (V.reads s r)
  | write =>
    rw [V.write_view h.2.1]
    exact h.2.2
  | again =>
    rw [V.read_view]
    exact h
  | @pass r ready next _ hready =>
    rw [V.read_view]
    exact h.2 _ (V.reads s r) hready

lemma Meets.run (h : V.Meets J Q p (V.view s)) (hrun : ReflTransGen (Step d) (p, s) (p', s')) :
    V.Meets J Q p' (V.view s') := by
  have hinv : Invariant (Step d) fun c : Program ρ β α × σ => V.Meets J Q c.1 (V.view c.2) := fun _ _ hc hstep =>
    hc.step hstep
  exact hinv.run h hrun

lemma Meets.bind {f : α → Program ρ β γ} {R : γ → τ → Prop} (h : V.Meets J Q p x)
    (hf : ∀ a x, J x → Q a x → V.Meets J R (f a) x) : V.Meets J R (p.bind f) x := by
  induction p generalizing x with
  | done a => exact hf a x h.1 h.2
  | read r next ih => exact ⟨h.1, fun v hv => ih v (h.2 v hv)⟩
  | write r v next ih => exact ⟨h.1, h.2.1, ih h.2.2⟩
  | poll r ready next ih => exact ⟨h.1, fun v hv hready => ih (h.2 v hv hready)⟩

lemma Meets.mono {R : α → τ → Prop} (h : V.Meets J Q p x) (hR : ∀ a x, Q a x → R a x) : V.Meets J R p x := by
  induction p generalizing x with
  | done a => exact ⟨h.1, hR a x h.2⟩
  | read r next ih => exact ⟨h.1, fun v hv => ih v (h.2 v hv)⟩
  | write r v next ih => exact ⟨h.1, h.2.1, ih h.2.2⟩
  | poll r ready next ih => exact ⟨h.1, fun v hv hready => ih (h.2 v hv hready)⟩

end View

end TetraOS.Library.RegisterProgram
