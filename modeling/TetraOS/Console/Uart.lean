import Mathlib.Data.List.GetD
import TetraOS.Console.LineInput
import TetraOS.Libc.PrintfBuffer
import TetraOS.Library.RegisterProgram

/-! The UART driver (kernel/UART.cpp) on a 16550 without FIFOs, whose transmitter and receiver go on between the
accesses of the kernel. To the kernel it is a terminal. -/

namespace TetraOS.Console

open Relation Library.RegisterProgram Library.Simulation Libc

/-- `line` is what has left the transmitter and `arrived` what has come to the receiver. `lost` counts the characters
that came before the last one was read. -/
structure Uart where
  ier : UInt8
  lcr : UInt8
  dll : UInt8
  dlm : UInt8
  holding : Option UInt8
  shift : Option UInt8
  line : List UInt8
  ready : Bool
  received : UInt8
  overrun : Bool
  arrived : List UInt8
  lost : ℕ

def lineStatus (ready overrun holdingEmpty empty : Bool) : UInt8 :=
  (if ready then 0x01 else 0) ||| (if overrun then 0x02 else 0) ||| (if holdingEmpty then 0x20 else 0) |||
    (if empty then 0x40 else 0)

namespace Uart

section Registers

variable (u : Uart)

/-- Bit 7 of the LCR: the first two registers are the divisor latch. -/
def dlab : Bool := u.lcr &&& 0x80 != 0

def lsr : UInt8 := lineStatus u.ready u.overrun u.holding.isNone (u.holding.isNone && u.shift.isNone)

def readRegister (r : ℕ) : UInt8 × Uart :=
  match r with
  | 0 => if u.dlab then (u.dll, u) else (u.received, { u with ready := false })
  | 1 => if u.dlab then (u.dlm, u) else (u.ier, u)
  | 3 => (u.lcr, u)
  | 5 => (u.lsr, { u with overrun := false })
  | _ => (0, u)

def writeRegister (r : ℕ) (v : UInt8) : Uart :=
  match r with
  | 0 => if u.dlab then { u with dll := v } else { u with holding := some v }
  | 1 => if u.dlab then { u with dlm := v } else { u with ier := v &&& 0x0F }
  | 3 => { u with lcr := v }
  | _ => u

end Registers

/-- A character that comes takes the place of one that was not read. -/
inductive Own : Uart → Uart → Prop
  | load {u} (c : UInt8) : u.holding = some c → u.shift = none →
      Own u { u with holding := none, shift := some c }
  | emit {u} (c : UInt8) : u.shift = some c → Own u { u with shift := none, line := u.line ++ [c] }
  | receive {u} (c : UInt8) : Own u
      { u with
        ready := true, received := c, arrived := u.arrived ++ [c],
        overrun := u.overrun || u.ready, lost := if u.ready then u.lost + 1 else u.lost }

def device : Device ℕ UInt8 Uart := ⟨readRegister, writeRegister, Own⟩

def sent (u : Uart) : List UInt8 := u.line ++ u.shift.toList ++ u.holding.toList

def pending (u : Uart) : List UInt8 := if u.ready then [u.received] else []

end Uart

section Driver

def uartThr : ℕ := 0x00
def uartRhr : ℕ := 0x00
def uartDll : ℕ := 0x00
def uartDlm : ℕ := 0x01
def uartIer : ℕ := 0x01
def uartLcr : ℕ := 0x03
def uartLsr : ℕ := 0x05
def uartLsrEmptyMask : UInt8 := 0x40
def uartLsrRxReady : UInt8 := 0x01

abbrev Access := Program ℕ UInt8

def uartInit : Access Unit :=
  .write uartIer 0x00 <|
  .read uartLcr fun lcr =>
  .write uartLcr (lcr ||| (1 : UInt8) <<< 7) <|
  .write uartDll 0x03 <|
  .write uartDlm 0x00 <|
  .write uartLcr ((0 : UInt8) ||| (3 : UInt8) <<< 0) <|
  .read uartIer fun ier =>
  .write uartIer (ier ||| (1 : UInt8) <<< 0) <|
  .done ()

def uartPutChar (c : UInt8) : Access Unit :=
  .poll uartLsr (fun v => v &&& uartLsrEmptyMask != 0) <| .write uartThr c <| .done ()

def uartGetChar : Access UInt8 := .poll uartLsr (fun v => v &&& uartLsrRxReady != 0) <| .read uartRhr .done

end Driver

inductive Dialogue (α : Type) where
  | done (result : α)
  | get (next : UInt8 → Dialogue α)
  | put (c : UInt8) (next : Dialogue α)

namespace Dialogue

variable {α : Type}

def run : Dialogue α → Terminal → α × Terminal
  | .done a, t => (a, t)
  | .get next, t => (next t.getChar.1).run t.getChar.2
  | .put c next, t => next.run (t.putChar c)

def andThen : Dialogue Unit → Dialogue α → Dialogue α
  | .done _, q => q
  | .get next, q => .get fun c => (next c).andThen q
  | .put c next, q => .put c (next.andThen q)

def onUart : Dialogue α → Access α
  | .done a => .done a
  | .get next => uartGetChar.bind fun c => (next c).onUart
  | .put c next => (uartPutChar c).bind fun _ => next.onUart

structure Session where
  got : List UInt8
  output : List UInt8

inductive Talk : Dialogue α × Session → Dialogue α × Session → Prop
  | get {next t} (c : UInt8) : Talk (.get next, t) (next c, { t with got := t.got ++ [c] })
  | put {c next t} : Talk (.put c next, t) (next, { t with output := t.output ++ [c] })

end Dialogue

section Initialisation

/-- What only the kernel changes: the settings, and what it has handed over for sending. -/
structure Settings where
  lcr : UInt8
  ier : UInt8
  dll : UInt8
  dlm : UInt8
  sent : List UInt8

namespace Settings

variable (x : Settings)

def dlab : Bool := x.lcr &&& 0x80 != 0

def read (r : ℕ) : UInt8 := if r = uartLcr then x.lcr else if x.dlab then x.dlm else x.ier

def write (r : ℕ) (v : UInt8) : Settings :=
  if r = uartLcr then { x with lcr := v } else
  if r = uartIer then if x.dlab then { x with dlm := v } else { x with ier := v &&& 0x0F }
  else { x with dll := v }

end Settings

def Uart.settings (u : Uart) : Settings := ⟨u.lcr, u.ier, u.dll, u.dlm, u.sent⟩

lemma own_settings {s s' : Uart} (h : Uart.device.own s s') : s'.settings = s.settings := by
  cases h with
  | load c hholding hshift => simp [Uart.settings, Uart.sent, hholding, hshift]
  | emit c hshift => simp [Uart.settings, Uart.sent, hshift]
  | receive c => rfl

lemma read_settings (s : Uart) (r : ℕ) : (s.readRegister r).2.settings = s.settings := by
  unfold Uart.readRegister
  split
  · split <;> rfl
  · split <;> rfl
  · rfl
  · rfl
  · rfl

lemma reads_settings (s : Uart) {r : ℕ} (hr : r = uartLcr ∨ r = uartIer) :
    (s.readRegister r).1 = s.settings.read r := by
  rcases hr with rfl | rfl
  · rfl
  · change (if s.dlab then _ else _ : UInt8 × Uart).1 = if s.dlab then _ else _
    split_ifs <;> rfl

/-- A write to the first register is one to the divisor only where the latch is open. -/
def Settings.Allowed (x : Settings) (r : ℕ) : Prop := r = uartLcr ∨ r = uartIer ∨ r = uartDll ∧ x.dlab

lemma write_settings {s : Uart} {r : ℕ} {v : UInt8} (hr : s.settings.Allowed r) :
    (s.writeRegister r v).settings = s.settings.write r v := by
  rcases hr with rfl | rfl | ⟨rfl, hdlab⟩
  · rfl
  · change (if s.dlab then _ else _ : Uart).settings = if s.dlab then _ else _
    split_ifs <;> rfl
  · exact congrArg Uart.settings (if_pos hdlab)

def settingsView : View Uart.device Settings where
  view := Uart.settings
  Reads x r v := r = uartLcr ∨ r = uartIer → v = x.read r
  Allowed x r _ := x.Allowed r
  write := Settings.write
  own := own_settings
  reads s _ hr := reads_settings s hr
  read_view := read_settings
  write_view := write_settings

lemma dlab_set (lcr : UInt8) : ((lcr ||| (1 : UInt8) <<< 7) &&& 0x80 != 0) = true := by
  rw [bne_iff_ne]
  intro h
  have hbit := congrArg (fun v : UInt8 => v.toBitVec.getLsbD 7) h
  simp at hbit

def initialised (u : Uart) : Settings := ⟨3, if u.dlab then (u.ier ||| 1) &&& 0x0F else 1, 3, 0, u.sent⟩

lemma write_ier (u : Uart) : u.settings.write uartIer 0 =
    ⟨u.lcr, if u.dlab then u.ier else 0, u.dll, if u.dlab then 0 else u.dlm, u.sent⟩ := by
  change (if u.dlab then _ else _) = _
  split_ifs <;> rfl

lemma write_last (ier : UInt8) (sent : List UInt8) :
    Settings.write ⟨3, ier, 3, 0, sent⟩ uartIer (Settings.read ⟨3, ier, 3, 0, sent⟩ uartIer ||| (1 : UInt8) <<< 0) =
      ⟨3, (ier ||| 1) &&& 0x0F, 3, 0, sent⟩ := by
  have hclosed : Settings.dlab ⟨3, ier, 3, 0, sent⟩ = false := by
    change ((3 : UInt8) &&& 0x80 != 0) = false
    decide
  rw [Settings.write, Settings.read, hclosed]
  rfl

lemma uartInit_meets (u : Uart) :
    settingsView.Meets (·.sent = u.sent) (fun _ x => x = initialised u) uartInit u.settings := by
  refine ⟨rfl, Or.inr (Or.inl rfl), ?_⟩
  rw [show settingsView.write u.settings uartIer 0 = _ from write_ier u]
  refine ⟨rfl, fun lcr _ => ⟨rfl, Or.inl rfl, rfl, Or.inr (Or.inr ⟨rfl, dlab_set lcr⟩), rfl, Or.inr (Or.inl rfl), ?_⟩⟩
  set ier := if u.dlab then u.ier else 0 with hier
  have hlatch : settingsView.write ⟨lcr ||| (1 : UInt8) <<< 7, ier, 3, if u.dlab then 0 else u.dlm, u.sent⟩ uartDlm 0 =
      ⟨lcr ||| (1 : UInt8) <<< 7, ier, 3, 0, u.sent⟩ := if_pos (dlab_set lcr)
  refine hlatch ▸ ⟨rfl, Or.inl rfl, rfl, fun v hv => ⟨rfl, Or.inr (Or.inl rfl), ?_⟩⟩
  have hlast : settingsView.write ⟨3, ier, 3, 0, u.sent⟩ uartIer (v ||| (1 : UInt8) <<< 0) = _ :=
    (congrArg (fun v : UInt8 => Settings.write _ uartIer (v ||| (1 : UInt8) <<< 0)) (hv (Or.inr rfl))).trans
      (write_last ier u.sent)
  refine hlast ▸ ⟨rfl, congrArg (Settings.mk 3 · 3 0 u.sent) ?_⟩
  rw [hier]
  cases u.dlab
  · exact (by decide : ((0 : UInt8) ||| 1) &&& 0x0F = 1)
  · rfl

end Initialisation

section Terminal

variable {α : Type}

def taking (next : UInt8 → Dialogue α) : Access α := .read uartRhr fun c => (next c).onUart
def giving (c : UInt8) (next : Dialogue α) : Access α := .write uartThr c next.onUart

def Doing (q : Access α) (u : Uart) (p : Dialogue α) : Prop :=
  q = p.onUart ∨ match p with
    | .done _ => False
    | .get next => q = taking next ∧ u.ready = true
    | .put c next => q = giving c next ∧ u.holding = none ∧ u.shift = none

structure Heard (u : Uart) (t : Dialogue.Session) : Prop where
  dlab : u.dlab = false
  output : u.sent = t.output
  kept : (t.got ++ u.pending).Sublist u.arrived
  count : u.arrived.length = t.got.length + u.pending.length + u.lost

variable {u u' : Uart} {t : Dialogue.Session} {p : Dialogue α} {q : Access α}

lemma Heard.own (h : Heard u t) (hown : Uart.device.own u u') : Heard u' t := by
  have hsettings := own_settings hown
  refine ⟨?_, (congrArg Settings.sent hsettings).trans h.output, ?_, ?_⟩
  · have hlcr := congrArg Settings.lcr hsettings
    exact (congrArg (fun lcr : UInt8 => lcr &&& 0x80 != 0) hlcr).trans h.dlab
  · cases hown with
    | load => exact h.kept
    | emit => exact h.kept
    | receive c =>
      have hgot : t.got.Sublist u.arrived := (List.sublist_append_left _ _).trans h.kept
      exact hgot.append (List.Sublist.refl [c])
  · have hcount := h.count
    cases hown with
    | load => exact hcount
    | emit => exact hcount
    | receive c =>
      change (u.arrived ++ [c]).length = t.got.length + 1 + if u.ready then u.lost + 1 else u.lost
      rw [List.length_append, List.length_singleton, hcount, Uart.pending]
      cases u.ready <;> simp <;> omega

lemma Doing.own (h : Doing q u p) (hown : Uart.device.own u u') : Doing q u' p := by
  rcases h with hq | h
  · exact Or.inl hq
  cases p with
  | done a => exact h.elim
  | get next =>
    refine Or.inr ⟨h.1, ?_⟩
    cases hown with
    | load => exact h.2
    | emit => exact h.2
    | receive => rfl
  | put c next =>
    obtain ⟨hq, hholding, hshift⟩ := h
    cases hown with
    | load c hc =>
      rw [hholding] at hc
      cases hc
    | emit c hc =>
      rw [hshift] at hc
      cases hc
    | receive => exact Or.inr ⟨hq, hholding, hshift⟩

lemma Heard.poll (h : Heard u t) : Heard { u with overrun := false } t := ⟨h.dlab, h.output, h.kept, h.count⟩

lemma lsr_ready (u : Uart) : (u.lsr &&& uartLsrRxReady != 0) = u.ready := by
  have h : ∀ a b c d, (lineStatus a b c d &&& uartLsrRxReady != 0) = a := by decide
  exact h _ _ _ _

lemma lsr_empty (u : Uart) : (u.lsr &&& uartLsrEmptyMask != 0) = true ↔ u.holding = none ∧ u.shift = none := by
  have h : ∀ a b c d, (lineStatus a b c d &&& uartLsrEmptyMask != 0) = d := by decide
  rw [Uart.lsr, h, Bool.and_eq_true, Option.isNone_iff_eq_none, Option.isNone_iff_eq_none]

lemma Heard.all (h : Heard u t) (hlost : u.lost = 0) : t.got ++ u.pending = u.arrived := by
  refine h.kept.eq_of_length ?_
  rw [h.count, hlost, List.length_append, Nat.add_zero]

lemma Heard.take (h : Heard u t) (hready : u.ready = true) :
    Heard { u with ready := false } { t with got := t.got ++ [u.received] } := by
  have hpending : u.pending = [u.received] := if_pos hready
  have hkept := h.kept
  have hcount := h.count
  rw [hpending] at hkept hcount
  refine ⟨h.dlab, h.output, ?_, ?_⟩
  · exact (List.append_nil (t.got ++ [u.received])).symm ▸ hkept
  · rw [List.length_append]
    exact hcount

lemma Heard.give (h : Heard u t) (c : UInt8) (hholding : u.holding = none) :
    Heard { u with holding := some c } { t with output := t.output ++ [c] } := by
  refine ⟨h.dlab, ?_, h.kept, h.count⟩
  rw [← h.output]
  simp [Uart.sent, hholding]

lemma uart_simulates (α : Type) : Simulates (Step Uart.device) Dialogue.Talk
    fun (x : Access α × Uart) (y : Dialogue α × Dialogue.Session) => Doing x.1 x.2 y.1 ∧ Heard x.2 y.2 := by
  rintro ⟨q, u⟩ ⟨q', u'⟩ ⟨p, t⟩ ⟨hdoing, hheard⟩ hstep
  dsimp only at hdoing hheard
  by_cases hown : q' = q ∧ Uart.device.own u u'
  · obtain ⟨rfl, hown⟩ := hown
    exact ⟨(p, t), ⟨hdoing.own hown, hheard.own hown⟩, .refl⟩
  cases p with
  | done a =>
    obtain rfl : q = .done a := hdoing.resolve_right id
    cases hstep with
    | own h => exact absurd ⟨rfl, h⟩ hown
  | get next =>
    rcases hdoing with rfl | ⟨rfl, hready⟩
    · change Step Uart.device (.poll uartLsr (fun v => v &&& uartLsrRxReady != 0) (taking next), u) _ at hstep
      cases hstep with
      | own h => exact absurd ⟨rfl, h⟩ hown
      | again => exact ⟨(.get next, t), ⟨Or.inl rfl, hheard.poll⟩, .refl⟩
      | pass h => exact ⟨(.get next, t), ⟨Or.inr ⟨rfl, (lsr_ready u).symm.trans h⟩, hheard.poll⟩, .refl⟩
    · cases hstep with
      | own h => exact absurd ⟨rfl, h⟩ hown
      | read =>
        have hread : Uart.device.read u uartRhr = (u.received, { u with ready := false }) :=
          if_neg (by rw [hheard.dlab]; nofun)
        rw [hread]
        exact ⟨_, ⟨Or.inl rfl, hheard.take hready⟩, .single (.get u.received)⟩
  | put c next =>
    rcases hdoing with rfl | ⟨rfl, hholding, hshift⟩
    · change Step Uart.device (.poll uartLsr (fun v => v &&& uartLsrEmptyMask != 0) (giving c next), u) _ at hstep
      cases hstep with
      | own h => exact absurd ⟨rfl, h⟩ hown
      | again => exact ⟨(.put c next, t), ⟨Or.inl rfl, hheard.poll⟩, .refl⟩
      | pass h => exact ⟨(.put c next, t), ⟨Or.inr ⟨rfl, (lsr_empty u).mp h⟩, hheard.poll⟩, .refl⟩
    · cases hstep with
      | own h => exact absurd ⟨rfl, h⟩ hown
      | write =>
        have hwrite : Uart.device.write u uartThr c = { u with holding := some c } :=
          if_neg (by rw [hheard.dlab]; nofun)
        rw [hwrite]
        exact ⟨_, ⟨Or.inl rfl, hheard.give c hholding⟩, .single .put⟩

lemma heard_fresh (hdlab : u.dlab = false) (hfresh : u.arrived = u.pending ∧ u.lost = 0) : Heard u ⟨[], u.sent⟩ where
  dlab := hdlab
  output := rfl
  kept := hfresh.1 ▸ List.Sublist.refl _
  count := by rw [hfresh.1, hfresh.2, List.length_nil, Nat.zero_add, Nat.add_zero]

lemma onUart_run (hdlab : u.dlab = false) (hfresh : u.arrived = u.pending ∧ u.lost = 0)
    (hrun : ReflTransGen (Step Uart.device) (p.onUart, u) (q, u')) : ∃ p' got,
      ReflTransGen Dialogue.Talk (p, ⟨[], u.sent⟩) (p', ⟨got, u'.sent⟩) ∧ Doing q u' p' ∧ Heard u' ⟨got, u'.sent⟩ := by
  have hstart : Doing p.onUart u p ∧ Heard u ⟨[], u.sent⟩ := ⟨Or.inl rfl, heard_fresh hdlab hfresh⟩
  obtain ⟨⟨p', got, output⟩, ⟨hdoing, hheard⟩, htalk⟩ :=
    (uart_simulates α).run (a := (p, ⟨[], u.sent⟩)) hstart hrun
  obtain rfl : u'.sent = output := hheard.output
  exact ⟨p', got, htalk, hdoing, hheard⟩

lemma Doing.done {a : α} (h : Doing (.done a) u p) : p = .done a := by
  rcases h with h | h
  · cases p with
    | done b =>
      cases h
      rfl
    | get next => cases h
    | put c next => cases h
  · cases p with
    | done b => exact h.elim
    | get next => cases h.1
    | put c next => cases h.1

lemma talk_run {p' : Dialogue α} {t' : Dialogue.Session} (h : ReflTransGen Dialogue.Talk (p, t) (p', t')) :
    ∃ heard, t'.got = t.got ++ heard ∧ ∀ input : ℕ → UInt8, (∀ i (hi : i < heard.length), input i = heard[i]) →
      p.run ⟨input, t.output⟩ = p'.run ⟨fun i => input (i + heard.length), t'.output⟩ := by
  generalize hx : (p, t) = x at h
  induction h using ReflTransGen.head_induction_on generalizing p t with
  | refl =>
    cases hx
    exact ⟨[], (List.append_nil _).symm, fun input _ => rfl⟩
  | head hstep _ ih =>
    subst hx
    cases hstep with
    | @get next _ c =>
      obtain ⟨heard, hgot, hrun⟩ := ih rfl
      refine ⟨c :: heard, by rw [hgot, List.append_assoc, List.singleton_append], fun input hinput => ?_⟩
      have hfirst : input 0 = c := hinput 0 (Nat.succ_pos _)
      have hrest := hrun (fun i => input (i + 1)) fun i hi => hinput (i + 1) (Nat.succ_lt_succ hi)
      calc Dialogue.run (.get next) ⟨input, t.output⟩ = (next c).run ⟨fun i => input (i + 1), t.output⟩ :=
            congrArg (fun c => (next c).run ⟨fun i => input (i + 1), t.output⟩) hfirst
        _ = p'.run ⟨fun i => input (i + heard.length + 1), t'.output⟩ := hrest
    | put =>
      obtain ⟨heard, hgot, hrun⟩ := ih rfl
      exact ⟨heard, hgot, hrun⟩

end Terminal

section Completion

variable {α : Type}

lemma pass_get {next : UInt8 → Dialogue α} {u : Uart} (h : u.ready = true) :
    Step Uart.device ((Dialogue.get next).onUart, u) (taking next, { u with overrun := false }) := by
  refine Step.pass ?_
  exact (lsr_ready u).trans h

lemma pass_put {c : UInt8} {next : Dialogue α} {u : Uart} (hholding : u.holding = none) (hshift : u.shift = none) :
    Step Uart.device ((Dialogue.put c next).onUart, u) (giving c next, { u with overrun := false }) := by
  refine Step.pass ?_
  exact (lsr_empty u).mpr ⟨hholding, hshift⟩

lemma emptied (u : Uart) : ∃ u', ReflTransGen Uart.Own u u' ∧ u'.holding = none ∧ u'.shift = none := by
  have hshift : ∀ u : Uart, ∃ u', ReflTransGen Uart.Own u u' ∧ u'.holding = u.holding ∧ u'.shift = none := by
    intro u
    cases h : u.shift with
    | none => exact ⟨u, .refl, rfl, h⟩
    | some c => exact ⟨_, .single (.emit c h), rfl, rfl⟩
  obtain ⟨u₁, hrun₁, hholding₁, hshift₁⟩ := hshift u
  cases h : u₁.holding with
  | none => exact ⟨u₁, hrun₁, h, hshift₁⟩
  | some c =>
    obtain ⟨u₂, hrun₂, hholding₂, hshift₂⟩ := hshift { u₁ with holding := none, shift := some c }
    exact ⟨u₂, (hrun₁.tail (.load c h hshift₁)).trans hrun₂, hholding₂, hshift₂⟩

lemma finishes (p : Dialogue α) (u : Uart) : ∃ a u', ReflTransGen (Step Uart.device) (p.onUart, u) (.done a, u') := by
  induction p generalizing u with
  | done a => exact ⟨a, u, .refl⟩
  | get next ih =>
    have hreceive := Step.own (p := (Dialogue.get next).onUart) (d := Uart.device) (Uart.Own.receive (u := u) 0)
    obtain ⟨a, u', hrun⟩ := ih _ _
    exact ⟨a, u', .head hreceive (.head (pass_get rfl) (.head .read hrun))⟩
  | put c next ih =>
    obtain ⟨u₁, hempty, hholding, hshift⟩ := emptied u
    obtain ⟨a, u', hrun⟩ := ih _
    exact ⟨a, u', (own_run hempty).trans (.head (pass_put hholding hshift) (.head .write hrun))⟩

lemma Doing.finishes {p : Dialogue α} {q : Access α} {u : Uart} (h : Doing q u p) :
    ∃ a u', ReflTransGen (Step Uart.device) (q, u) (.done a, u') := by
  rcases h with rfl | h
  · exact Console.finishes p u
  · cases p with
    | done a => exact h.elim
    | get next =>
      obtain ⟨rfl, _⟩ := h
      obtain ⟨a, u', hrun⟩ := Console.finishes (next _) _
      exact ⟨a, u', .head .read hrun⟩
    | put c next =>
      obtain ⟨rfl, _⟩ := h
      obtain ⟨a, u', hrun⟩ := Console.finishes next _
      exact ⟨a, u', .head .write hrun⟩

end Completion

/-- Whatever the settings were and whatever the UART does meanwhile, `uart_init` hands nothing over for sending, and
leaves the latch closed, the divisor 3, words of 8 bits, and the receive interrupt on. Where the latch was open, the
other interrupts stay on as well. -/
theorem uartInit_configures (u u' : Uart) (q : Access Unit)
    (hrun : ReflTransGen (Step Uart.device) (uartInit, u) (q, u')) :
    u'.sent = u.sent ∧ (q = .done () → u'.lcr = 3 ∧ u'.dll = 3 ∧ u'.dlm = 0 ∧
      u'.ier = if u.dlab then (u.ier ||| 1) &&& 0x0F else 1) := by
  have hmeets := (uartInit_meets u).run hrun
  refine ⟨hmeets.inv, ?_⟩
  rintro rfl
  have hsettings : u'.settings = initialised u := hmeets.2
  exact ⟨congrArg Settings.lcr hsettings, congrArg Settings.dll hsettings, congrArg Settings.dlm hsettings,
    congrArg Settings.ier hsettings⟩

def openUart : Uart := ⟨0x0E, 0x83, 1, 0, none, some (char 'x'), [], true, char 'y', false, [char 'y'], 0⟩

theorem uartInit_configures_open : ∃ u', ReflTransGen (Step Uart.device) (uartInit, openUart) (.done (), u') ∧
    u'.ier = 0x0F ∧ u'.sent = [char 'x'] := by
  have hrun : ReflTransGen (Step Uart.device) (uartInit, openUart) (.done (), _) :=
    .head .write <| .head .read <| .head .write <| .head .write <| .head .write <| .head .write <| .head .read <|
      .single .write
  obtain ⟨hsent, hsettings⟩ := uartInit_configures openUart _ _ hrun
  exact ⟨_, hrun, (hsettings rfl).2.2.2, hsent⟩

/-- However the driver and the UART interleave: what is put is sent in order, each character once; what is got has
arrived in that order, and is all that arrived when none was lost; and a dialogue that is done is one with a terminal
that has the characters got for input. -/
theorem uart_terminal {α : Type} (p : Dialogue α) (u₀ u : Uart) (q : Access α) (hdlab : u₀.dlab = false)
    (hfresh : u₀.arrived = u₀.pending ∧ u₀.lost = 0)
    (hrun : ReflTransGen (Step Uart.device) (p.onUart, u₀) (q, u)) :
    ∃ p' got, ReflTransGen Dialogue.Talk (p, ⟨[], u₀.sent⟩) (p', ⟨got, u.sent⟩) ∧
      (got ++ u.pending).Sublist u.arrived ∧ (u.lost = 0 → got ++ u.pending = u.arrived) ∧
      (∀ a, q = .done a → ∀ input : ℕ → UInt8, (∀ i (hi : i < got.length), input i = got[i]) →
        p.run ⟨input, u₀.sent⟩ = (a, ⟨fun i => input (i + got.length), u.sent⟩)) ∧
      ∃ a u', ReflTransGen (Step Uart.device) (q, u) (.done a, u') := by
  obtain ⟨p', got, htalk, hdoing, hheard⟩ := onUart_run hdlab hfresh hrun
  refine ⟨p', got, htalk, hheard.kept, hheard.all, ?_, hdoing.finishes⟩
  rintro a rfl input hinput
  obtain ⟨heard, hgot, hterminal⟩ := talk_run htalk
  obtain rfl : got = heard := hgot
  obtain rfl : p' = .done a := hdoing.done
  exact hterminal input hinput

def closedUart : Uart := ⟨0, 3, 3, 0, none, none, [], false, 0, false, [], 0⟩

theorem uart_terminal_echo : ∃ c u, ReflTransGen (Step Uart.device)
    ((Dialogue.get fun c => .put c (.done c)).onUart, closedUart) (.done c, u) ∧ u.sent = [c] := by
  obtain ⟨c, u, hrun⟩ := finishes (.get fun c => .put c (.done c)) closedUart
  obtain ⟨_, got, _, _, _, hterminal, _⟩ := uart_terminal _ closedUart u _ rfl ⟨rfl, rfl⟩ hrun
  have hend := hterminal c rfl (fun i => got.getD i 0) fun i hi => List.getD_eq_getElem got 0 hi
  obtain ⟨hc, ht⟩ := Prod.mk.inj hend
  refine ⟨c, u, hrun, ?_⟩
  rw [← hc]
  exact (congrArg Terminal.output ht).symm

section Printf

variable {p : Dialogue Unit} {bytes : List UInt8}

def emitDialogue (p : Dialogue Unit) (c : UInt8) : Option (Dialogue Unit) := some (p.andThen (.put c (.done ())))

def vprintfDialogue (fmt : List UInt8) (args : List Arg) : Option (List Arg × Dialogue Unit) :=
  vprintf emitDialogue fmt args (.done ())

def putAll (bytes : List UInt8) : Dialogue Unit := bytes.foldr .put (.done ())

lemma andThen_put (bytes : List UInt8) (c : UInt8) :
    (putAll bytes).andThen (.put c (.done ())) = putAll (bytes ++ [c]) := by
  induction bytes with
  | nil => rfl
  | cons b bytes ih => exact congrArg (Dialogue.put b) ih

lemma emitAll_emitDialogue (bytes before : List UInt8) :
    emitAll emitDialogue bytes (putAll before) = some (putAll (before ++ bytes)) := by
  induction bytes generalizing before with
  | nil => rw [List.append_nil, emitAll_nil]
  | cons c bytes ih =>
    rw [emitAll_cons, emitDialogue, andThen_put]
    exact (ih (before ++ [c])).trans (by rw [List.append_assoc, List.singleton_append])

lemma putAll_talk {t t' : Dialogue.Session} (h : ReflTransGen Dialogue.Talk (putAll bytes, t) (p, t')) :
    ∃ first rest, bytes = first ++ rest ∧ p = putAll rest ∧ t' = ⟨t.got, t.output ++ first⟩ := by
  generalize hx : (putAll bytes, t) = x at h
  induction h using ReflTransGen.head_induction_on generalizing bytes t with
  | refl =>
    cases hx
    exact ⟨[], bytes, rfl, rfl, by rw [List.append_nil]⟩
  | head hstep _ ih =>
    cases bytes with
    | nil =>
      subst hx
      cases hstep
    | cons c bytes =>
      subst hx
      cases hstep
      obtain ⟨first, rest, hbytes, hp, ht⟩ := ih (t := { t with output := t.output ++ [c] }) rfl
      refine ⟨c :: first, rest, congrArg (c :: ·) hbytes, hp, ht.trans ?_⟩
      rw [List.append_assoc, List.singleton_append]

/-- What a format and its arguments come to is sent, in order and no more than once. -/
theorem vprintf_on_uart (fmt : List UInt8) (args : List Arg) (n : ℕ) (hwidth : Width fmt args n) (hn : n < 2 ^ 31)
    (u₀ : Uart) (hdlab : u₀.dlab = false) (hfresh : u₀.arrived = u₀.pending ∧ u₀.lost = 0) :
    ∃ rest bytes p, bytes.length = n ∧ kernelVprintf fmt args = some (rest, bytes) ∧
      vprintfDialogue fmt args = some (rest, p) ∧
      ∀ q u, ReflTransGen (Step Uart.device) (p.onUart, u₀) (q, u) →
        (∃ sent, sent <+: bytes ∧ u.sent = u₀.sent ++ sent) ∧ (q = .done () → u.sent = u₀.sent ++ bytes) := by
  obtain ⟨bytes, rest, hlen, hputs⟩ := hwidth.outcome.resolve_right fun h => absurd h.1 (by omega)
  refine ⟨rest, bytes, putAll bytes, hlen, ?_, ?_, fun q u hrun => ?_⟩
  · rw [kernelVprintf, hputs, emitAll_putChar]
    rfl
  · have hemit := emitAll_emitDialogue bytes []
    rw [vprintfDialogue, hputs]
    exact congrArg (Option.map fun p => (rest, p)) hemit
  · obtain ⟨p', got, htalk, hdoing, _⟩ := onUart_run hdlab hfresh hrun
    obtain ⟨first, rest, rfl, rfl, ht⟩ := putAll_talk htalk
    have hsent : u.sent = u₀.sent ++ first := congrArg Dialogue.Session.output ht
    refine ⟨⟨first, List.prefix_append _ _, hsent⟩, ?_⟩
    rintro rfl
    cases rest with
    | nil => rw [hsent, List.append_nil]
    | cons c rest => cases hdoing.done

theorem vprintf_on_uart_decimal : ∃ p u, vprintfDialogue [char '%', char 'd'] [.int 42] = some ([], p) ∧
    ReflTransGen (Step Uart.device) (p.onUart, closedUart) (.done (), u) ∧ u.sent = [char '4', char '2'] := by
  have hwidth : Width [char '%', char 'd'] [.int 42] (intWidth 42 + 0) := .int _ _ (Or.inl rfl) (by decide) (.nil [])
  have hlen : intWidth 42 + 0 = 2 := by simp [intWidth, digits]
  obtain ⟨rest, bytes, p, _, hkernel, hp, hsent⟩ :=
    vprintf_on_uart _ _ _ hwidth (by rw [hlen]; decide) closedUart rfl ⟨rfl, rfl⟩
  have hprinted : kernelVprintf [char '%', char 'd'] [.int 42] = some ([], [char '4', char '2']) := rfl
  obtain ⟨rfl, rfl⟩ := Prod.mk.inj (Option.some.inj (hkernel.symm.trans hprinted))
  obtain ⟨_, u, hrun⟩ := finishes p closedUart
  exact ⟨p, u, hp, hrun, (hsent _ u hrun).2 rfl⟩

end Printf

section Read

variable {σ : Type} (storeByte : σ → ℕ → UInt8 → Option σ) (buffer : ℕ)

/-- The loop of `read` with `get_char` and `put_char`. A store that faults is the end. -/
def readDialogue : (room counter : ℕ) → σ → Dialogue (Option (ℕ × σ))
  | 0, counter, s => .done (some (counter, s))
  | room + 1, counter, s => .get fun c =>
    if c = char '\r' then
      match storeByte s (address buffer counter) 0 with
      | none => .done none
      | some s => .put (char '\n') (.done (some (counter, s)))
    else .put c <|
      match storeByte s (address buffer counter) c with
      | none => .done none
      | some s => readDialogue room (counter + 1) s

lemma readDialogue_run (room counter : ℕ) (s : σ) (t : Terminal) :
    readLoop storeByte buffer room counter s t =
      ((readDialogue storeByte buffer room counter s).run t).1.map
        fun x => (x.1, x.2, ((readDialogue storeByte buffer room counter s).run t).2) := by
  induction room generalizing counter s t with
  | zero => rfl
  | succ room ih =>
    rw [readLoop, readDialogue, Dialogue.run]
    dsimp only
    split_ifs with hc
    · cases storeByte s (address buffer counter) 0 with
      | none => rfl
      | some s => rfl
    · rw [Dialogue.run]
      cases storeByte s (address buffer counter) t.getChar.1 with
      | none => rfl
      | some s => exact ih _ _ _

/-- What `read` has stored and echoed when it returns is what it makes of a terminal with the characters that it took
from the UART. -/
theorem read_on_uart (size : ℕ) (s : σ) (u₀ u : Uart) (result : Option (ℕ × σ)) (hdlab : u₀.dlab = false)
    (hfresh : u₀.arrived = u₀.pending ∧ u₀.lost = 0)
    (hrun : ReflTransGen (Step Uart.device) ((readDialogue storeByte buffer size 0 s).onUart, u₀) (.done result, u)) :
    ∃ got, (got ++ u.pending).Sublist u.arrived ∧ (u.lost = 0 → got ++ u.pending = u.arrived) ∧
      ∀ input : ℕ → UInt8, (∀ i (hi : i < got.length), input i = got[i]) →
        read storeByte buffer size s ⟨input, u₀.sent⟩ =
          result.map fun x => (x.1, x.2, ⟨fun i => input (i + got.length), u.sent⟩) := by
  obtain ⟨p', got, htalk, hdoing, hheard⟩ := onUart_run hdlab hfresh hrun
  obtain ⟨heard, hgot, hterminal⟩ := talk_run htalk
  obtain rfl : got = heard := hgot
  obtain rfl : p' = .done result := hdoing.done
  refine ⟨got, hheard.kept, hheard.all, fun input hinput => ?_⟩
  rw [read, readDialogue_run, hterminal input hinput]
  rfl

theorem read_on_uart_line : ∃ result u, ReflTransGen (Step Uart.device)
    ((readDialogue put 0x10000 20 0 fun _ => 0xFF).onUart, closedUart) (.done result, u) ∧
    ∃ input : ℕ → UInt8, (read put 0x10000 20 (fun _ => 0xFF) ⟨input, []⟩).map (fun x => (x.1, x.2.1)) = result := by
  obtain ⟨result, u, hrun⟩ := finishes (readDialogue put 0x10000 20 0 fun _ => 0xFF) closedUart
  obtain ⟨got, _, _, hread⟩ := read_on_uart put 0x10000 20 _ closedUart u result rfl ⟨rfl, rfl⟩ hrun
  refine ⟨result, u, hrun, fun i => got.getD i 0, ?_⟩
  refine (congrArg (Option.map _) (hread _ fun i hi => List.getD_eq_getElem got 0 hi)).trans ?_
  rw [Option.map_map]
  exact Option.map_id'

end Read

end TetraOS.Console
