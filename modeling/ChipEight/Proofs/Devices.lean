import ChipEight.Proofs.Lemmas.Timers
import ChipEight.Screen.Terminal

/-!
# Nothing comes back from the devices

A console passes on what its session tells and takes nothing back but the answers of the keypad and the pixels that a sprite met.
So consoles that differ only in their tracers, in the calls at which their speakers fail and in the presents at which their surfaces
fail (`Console.Alike`) stay that way, whatever is done to both of them.
-/

namespace ChipEight

variable {σ τ κ : Type} {R : σ → τ → Prop}

/-! ## Surfaces that fail -/

/-- Terminal displays with the same framebuffer show the same, whatever their terminals answer. -/
theorem TerminalDisplay.indistinct (r : Resolution) :
    Surface.Indistinct fun t u : TerminalDisplay r => t.framebuffer = u.framebuffer := by
  have hpresent (t : TerminalDisplay r) : (Surface.present t).2.framebuffer = t.framebuffer.takeDirty.2 := by
    show t.present.2.framebuffer = _
    unfold TerminalDisplay.present
    dsimp only
    split
    · unfold TerminalDisplay.render
      split <;> rfl
    · rfl
  refine ⟨fun {t u} h x y => ?_, fun {t u} h x y => ?_, fun {t u} h => ?_, fun {t u} h => ?_⟩
  · show (t.framebuffer.plot x y).1 = (u.framebuffer.plot x y).1
    rw [h]
  · show (t.framebuffer.plot x y).2 = (u.framebuffer.plot x y).2
    rw [h]
  · show t.framebuffer.clear = u.framebuffer.clear
    rw [h]
  · rw [hpresent, hpresent, h]

/-- Surfaces that show the same whether or not one of them is presented do so behind links that break at different presents. -/
theorem Linked.indistinct [Surface σ] [Surface τ] (hR : Surface.Indistinct R)
    (hpresent : ∀ {a b}, R a b → R (Surface.present a).2 b ∧ R a (Surface.present b).2) :
    Surface.Indistinct fun (k : Linked σ) (l : Linked τ) => R k.surface l.surface := by
  refine ⟨fun h => hR.answer h, fun h => hR.plot h, fun h => hR.clear h, fun {k l} h => ?_⟩
  simp only [Surface.present]
  cases k.answers k.presents with
  | none =>
    cases l.answers l.presents with
    | none => exact hR.present h
    | some error => exact (hpresent h).1
  | some error =>
    cases l.answers l.presents with
    | none => exact (hpresent h).2
    | some error => exact h

/-! ## Consoles side by side -/

namespace Console

/-- That two consoles are the same but for their speakers, their tracers, their logs and surfaces that show the same. -/
structure Alike (R : σ → τ → Prop) (c : Console σ κ) (d : Console τ κ) : Prop where
  session : c.session.Alike R d.session
  timers : c.session.timers = d.session.timers
  dialect : c.session.dialect = d.session.dialect
  keypad : c.keypad = d.keypad
  speakerCalls : c.speakerCalls = d.speakerCalls
  told : c.told = d.told

/-- The console with another speaker, and with or without a tracer. -/
def attach (c : Console σ κ) (speaker : Speaker) (tracer : Option Tracer) : Console σ κ :=
  { c with speaker := speaker, tracer := tracer }

variable {c : Console σ κ} {d : Console τ κ}

theorem Alike.attach (h : c.Alike R d) (speaker speaker' : Speaker) (tracer tracer' : Option Tracer) :
    (c.attach speaker tracer).Alike R (d.attach speaker' tracer') := { h with }

/-- What a device makes of an effect shows in its own state and in the log only. -/
theorem Alike.hear (h : c.Alike R d) (e : Effect) : (c.hear e).Alike R (d.hear e) where
  session := h.session
  timers := h.timers
  dialect := h.dialect
  keypad := h.keypad
  speakerCalls := by
    cases e with
    | speaker call => exact congrArg (· + 1) h.speakerCalls
    | _ => exact h.speakerCalls
  told := congrArg (e :: ·) h.told

theorem Alike.foldl_hear (h : c.Alike R d) (effects : List Effect) :
    (effects.foldl Console.hear c).Alike R (effects.foldl Console.hear d) := by
  induction effects generalizing c d with
  | nil => exact h
  | cons e rest ih => exact ih (h.hear e)

/-- Sessions that are alike and tell the same are taken over alike. -/
theorem Alike.settle (h : c.Alike R d) {p : Session σ × List Effect} {q : Session τ × List Effect} (hsession : p.1.Alike R q.1)
    (htimers : p.1.timers = q.1.timers) (hdialect : p.1.dialect = q.1.dialect) (htold : p.2 = q.2) :
    (c.settle p).Alike R (d.settle q) := by
  have hbefore : Alike R { c with session := p.1 } { d with session := q.1 } :=
    ⟨hsession, htimers, hdialect, h.keypad, h.speakerCalls, h.told⟩
  unfold Console.settle
  rw [htold]
  exact hbefore.foldl_hear q.2

theorem Alike.answer [Keypad κ] (h : c.Alike R d) (a : Action Nat) : c.answer a = d.answer a := by
  cases a <;> simp only [Console.answer, h.keypad]

variable [Surface σ] [Surface τ] [Keypad κ]

/-- What is done to two consoles that are alike leaves them alike. -/
theorem Alike.act (hR : Surface.Indistinct R) (h : c.Alike R d) (a : Action Nat) : (c.act a).Alike R (d.act a) := by
  have hsame (turn : Turn σ) (_ : turn ∈ c.session.turnOf? (d.answer a)) :
      turn.instruction.distinguishes c.session.dialect d.session.dialect = false := by
    rw [h.dialect]
    exact turn.instruction.distinguishes_self _
  obtain ⟨hsession, htimers, htold⟩ := Session.alike_act hR h.session h.timers hsame
  have hlooked : c.looked a = d.looked a := by
    cases a <;> simp only [looked, keypadAfter, h.answer, h.keypad, htold]
  have hdialect : (c.session.act (d.answer a)).1.dialect = (d.session.act (d.answer a)).1.dialect :=
    (Session.dialect_act _ _).trans (h.dialect.trans (Session.dialect_act _ _).symm)
  have hbefore : Alike R { c with keypad := d.looked a } { d with keypad := d.looked a } := { h with keypad := rfl }
  rw [act_eq, act_eq, h.answer, hlooked]
  exact hbefore.settle hsession htimers hdialect htold

theorem Alike.actAll (hR : Surface.Indistinct R) (h : c.Alike R d) (actions : List (Action Nat)) :
    (c.actAll actions).Alike R (d.actAll actions) := by
  induction actions generalizing c d with
  | nil => exact h
  | cons a rest ih => exact ih (h.act hR a)

omit [Surface σ] [Surface τ] [Keypad κ] in
/-- Consoles start alike with the same settings, the same entropy and the same keypad, on surfaces that show the same. -/
theorem alike_start (settings : Settings) (entropy : ByteStream) {a : σ} {b : τ} (hab : R a b) (keypad : κ)
    (speaker speaker' : Speaker) :
    Alike R (start settings entropy a keypad speaker) (start settings entropy b keypad speaker') := by
  have hsession : (Session.start settings entropy a).1.Alike R (Session.start settings entropy b).1 :=
    ⟨rfl, rfl, rfl, rfl, rfl, hab⟩
  have hbefore : Alike R (⟨(Session.start settings entropy a).1, keypad, speaker, 0, none, [], []⟩ : Console σ κ)
      ⟨(Session.start settings entropy b).1, keypad, speaker', 0, none, [], []⟩ := ⟨hsession, rfl, rfl, rfl, rfl, rfl⟩
  exact hbefore.settle hsession rfl rfl rfl

/-- Nothing comes back from a speaker, a tracer or the end of a present. Two consoles that are alike, such as two that have just
started with the same settings and keypad on surfaces that show the same, are alike after every history, with any two speakers, and
with or without tracers: their sessions hold the same memory, registers, frames, timers, random bytes and status, their surfaces show
the same, and their speakers were asked for the same in the same order. -/
theorem devices_never_feed_back (hR : Surface.Indistinct R) :
    (∀ (settings : Settings) (entropy : ByteStream) (a : σ) (b : τ) (keypad : κ) (speaker speaker' : Speaker)
        (tracer tracer' : Option Tracer) (actions : List (Action Nat)), R a b →
      Alike R (((start settings entropy a keypad speaker).attach speaker tracer).actAll actions)
        (((start settings entropy b keypad speaker').attach speaker' tracer').actAll actions)) ∧
    (∀ (c : Console σ κ) (d : Console τ κ), c.Alike R d →
      ∀ (speaker speaker' : Speaker) (tracer tracer' : Option Tracer) (actions : List (Action Nat)),
        Alike R ((c.attach speaker tracer).actAll actions) ((d.attach speaker' tracer').actAll actions) ∧
          Effect.calls ((c.attach speaker tracer).actAll actions).told =
            Effect.calls ((d.attach speaker' tracer').actAll actions).told) := by
  have key {c : Console σ κ} {d : Console τ κ} (h : c.Alike R d) (speaker speaker' : Speaker) (tracer tracer' : Option Tracer)
      (actions : List (Action Nat)) :
      Alike R ((c.attach speaker tracer).actAll actions) ((d.attach speaker' tracer').actAll actions) :=
    (h.attach speaker speaker' tracer tracer').actAll hR actions
  constructor
  · intro settings entropy a b keypad speaker speaker' tracer tracer' actions hab
    exact key (alike_start settings entropy hab keypad speaker speaker') speaker speaker' tracer tracer' actions
  · intro c d h speaker speaker' tracer tracer' actions
    have hend := key h speaker speaker' tracer tracer' actions
    exact ⟨hend, congrArg Effect.calls hend.told⟩

/-- A program that draws a glyph and chooses a note while a tone of one tick starts and stops. -/
def beeping : List (Action Nat) :=
  [.load [0x60, 0x01, 0xf0, 0x18, 0xd0, 0x05, 0xf0, 0x17] 0x200, .step 0, .step 0, .tick, .step 0, .present, .step 0, .present]

/-- The end of that program, on some surface, with some speaker, and with a tracer or without. -/
def beep (surface : σ) (speaker : Speaker) (tracer : Option Tracer) : Console σ HeldKey :=
  ((start .standard (.ofSeed 0) surface ⟨none⟩ speaker).attach speaker tracer).actAll beeping

/-- What devices look like that do not work. -/
def broken : DeviceError := ⟨"BrokenPipe", "gone"⟩

/-- A terminal that draws and one that does not, a link that carries and one that breaks: with all of them the session is the same
and the speaker, whether it works or not, is asked for the same. -/
theorem devices_never_feed_back_beep :
    Alike (fun t u => t.framebuffer = u.framebuffer) (beep (TerminalDisplay.blank .standard fun _ => none) .working none)
        (beep (TerminalDisplay.blank .standard fun _ => some broken) (.failing "no device") (some .empty)) ∧
      Alike (fun k l => k.surface = l.surface) (beep (Linked.carrying (Framebuffer.blank .standard) none broken) .working none)
        (beep (Linked.carrying (Framebuffer.blank .standard) (some 1) broken) (.failing "no device") (some .empty)) ∧
      Effect.calls (beep (TerminalDisplay.blank .standard fun _ => none) .working none).told =
        [.pitch 65, .stop, .start 16666, .pitch 880] ∧
      (beep (TerminalDisplay.blank .standard fun _ => none) .working none).session.surface.shown ≠ none ∧
      (beep (TerminalDisplay.blank .standard fun _ => some broken) .working none).session.surface.shown = none := by
  have hterminal := @devices_never_feed_back _ _ HeldKey _ _ _ _ (TerminalDisplay.indistinct .standard)
  have hlink := @devices_never_feed_back _ _ HeldKey _ _ _ _
    (Linked.indistinct (Surface.indistinct_eq (Framebuffer .standard)) fun h => ⟨h, h⟩)
  refine ⟨?_, ?_, ?_, ?_, ?_⟩
  · exact hterminal.1 .standard (.ofSeed 0) _ _ ⟨none⟩ .working (.failing "no device") none (some .empty) beeping rfl
  · exact hlink.1 .standard (.ofSeed 0) _ _ ⟨none⟩ .working (.failing "no device") none (some .empty) beeping rfl
  · decide +kernel
  · decide +kernel
  · decide +kernel

end Console

end ChipEight
