import ChipEight.Proofs.Loading
import ChipEight.Proofs.Tone
import ChipEight.Screen.Terminal
import Mathlib.Logic.Function.Iterate

/-!
# A halted session

A halted session does nothing any more. A step and a poll leave the whole console as it is, and so does a load of a program that does
not fit. A tick still counts the timers down and a present is still handed to the surface, and that is all that can change until a
program is loaded (`Console.halted_is_absorbing`). What a present does is up to the surface; those that there are keep their pixels.
-/

namespace ChipEight

/-- Whether an action loads a program that has a place in memory. -/
def Action.revives {α : Type} : Action α → Bool
  | .load program address => decide (Memory.Fits program address)
  | _ => false

variable {σ κ : Type} [Surface σ]

/-! ## Surfaces that keep their pixels -/

namespace Surface

/-- That a present leaves what can be seen on a surface in some way alone. -/
def Keeps {π : Type} (picture : σ → π) : Prop := ∀ surface : σ, picture (present surface).2 = picture surface

/-- A framebuffer is not changed at all by a present. -/
theorem keeps_framebuffer (r : Resolution) : Keeps (id : Framebuffer r → Framebuffer r) := fun _ => rfl

/-- A terminal display keeps the pixels of its framebuffer, whether or not the terminal draws them. -/
theorem keeps_terminal (r : Resolution) : Keeps fun t : TerminalDisplay r => t.framebuffer.bytes := by
  intro t
  show t.present.2.framebuffer.bytes = t.framebuffer.bytes
  unfold TerminalDisplay.present
  dsimp only
  split
  · unfold TerminalDisplay.render
    split <;> rfl
  · rfl

/-- A surface behind a link keeps what it keeps without the link. -/
theorem Keeps.linked {π : Type} {picture : σ → π} (h : Keeps picture) : Keeps fun l : Linked σ => picture l.surface := by
  intro l
  simp only [present]
  split
  · rfl
  · exact h l.surface

/-- What one present leaves alone, any number of them does. -/
theorem Keeps.iterate {π : Type} {picture : σ → π} (h : Keeps picture) (presents : Nat) (surface : σ) :
    picture ((fun v => (present v).2)^[presents] surface) = picture surface := by
  induction presents generalizing surface with
  | zero => rfl
  | succ n ih => exact (ih (present surface).2).trans (h surface)

end Surface

/-! ## One action -/

namespace Session

/-- A session in which some ticks and some presents have passed and nothing else has. -/
structure Lapsed (s : Session σ) (ticks presents : Nat) (t : Session σ) : Prop where
  same : t = { s with timers := t.timers, surface := t.surface }
  left : ∀ timer, (t.timers.left timer).toNat = (s.timers.left timer).toNat - ticks
  surface : t.surface = (fun v => (Surface.present v).2)^[presents] s.surface

theorem Lapsed.refl (s : Session σ) : s.Lapsed 0 0 s := ⟨rfl, fun _ => rfl, rfl⟩

theorem Lapsed.trans {s t u : Session σ} {ticks ticks' presents presents' : Nat} (h : s.Lapsed ticks presents t)
    (h' : t.Lapsed ticks' presents' u) : s.Lapsed (ticks + ticks') (presents + presents') u where
  same := by
    rw [h'.same, h.same]
  left := by
    intro timer
    rw [h'.left, h.left, Nat.sub_sub]
  surface := by
    rw [h'.surface, h.surface, Nat.add_comm, Function.iterate_add_apply]

theorem Lapsed.status {s t : Session σ} {ticks presents : Nat} (h : s.Lapsed ticks presents t) : t.status = s.status := by
  rw [h.same]

omit [Surface σ] in
/-- A poll of a halted session does not look. -/
theorem poll_of_halted {s : Session σ} {reason : HaltReason} (h : s.status = .halted reason) (look : Option Keypress) :
    s.poll look = (s, []) := by
  rw [poll, h]

/-- What does not load a program lets a halted session lapse, and tells nobody but the speaker anything. -/
theorem lapsed_act {s : Session σ} {reason : HaltReason} (h : s.status = .halted reason) {a : Action (Option Keypress)}
    (ha : a.revives = false) :
    s.Lapsed (if a = .tick then 1 else 0) (if a = .present then 1 else 0) (s.act a).1 ∧ Effect.others (s.act a).2 = [] := by
  cases a with
  | load program address =>
    obtain ⟨f, hf⟩ := s.exists_load_eq (of_decide_eq_false ha)
    rw [act, hf]
    exact ⟨.refl s, rfl⟩
  | step look =>
    rw [act, step_of_halted h]
    exact ⟨.refl s, rfl⟩
  | tick => exact ⟨⟨rfl, fun timer => s.timers.left_tick timer, rfl⟩, Effect.others_map_speaker _⟩
  | poll look =>
    rw [act, poll_of_halted h]
    exact ⟨.refl s, rfl⟩
  | present => exact ⟨⟨rfl, fun _ => rfl, rfl⟩, rfl⟩

end Session

/-! ## A history -/

/-- A tracer sees nothing in what only the speaker is told. -/
theorem Tracer.seeAll_of_others_eq_nil {told : List Effect} (h : Effect.others told = []) (t : Tracer) : t.seeAll told = t := by
  induction told with
  | nil => rfl
  | cons e rest ih =>
    cases e with
    | speaker call => exact ih h
    | _ => cases h

namespace Console

/-- A console in which some ticks and some presents have passed: its session has lapsed, its keypad was not looked at and its tracer
was told nothing, and whatever else was told is for the speaker. -/
structure Lapsed (c : Console σ κ) (ticks presents : Nat) (d : Console σ κ) : Prop where
  session : c.session.Lapsed ticks presents d.session
  keypad : d.keypad = c.keypad
  tracer : d.tracer = c.tracer
  told : ∃ told, d.told = told ++ c.told ∧ Effect.others told = []

theorem Lapsed.refl (c : Console σ κ) : c.Lapsed 0 0 c := ⟨.refl c.session, rfl, rfl, [], rfl, rfl⟩

theorem Lapsed.trans {c d e : Console σ κ} {ticks ticks' presents presents' : Nat} (h : c.Lapsed ticks presents d)
    (h' : d.Lapsed ticks' presents' e) : c.Lapsed (ticks + ticks') (presents + presents') e where
  session := h.session.trans h'.session
  keypad := h'.keypad.trans h.keypad
  tracer := h'.tracer.trans h.tracer
  told := by
    obtain ⟨told, ht, ho⟩ := h.told
    obtain ⟨told', ht', ho'⟩ := h'.told
    refine ⟨told' ++ told, ?_, ?_⟩
    · rw [ht', ht, List.append_assoc]
    · rw [Effect.others_append, ho, ho']
      rfl

variable [Keypad κ]

omit [Surface σ] in
/-- The answer of the keypad does not decide whether an action revives a session. -/
theorem revives_answer (c : Console σ κ) (a : Action Nat) : (c.answer a).revives = a.revives := by
  cases a <;> rfl

/-- What does not load a program lets a halted console lapse. -/
theorem lapsed_act {c : Console σ κ} {reason : HaltReason} (h : c.session.status = .halted reason) {a : Action Nat}
    (ha : a.revives = false) : c.Lapsed (if a = .tick then 1 else 0) (if a = .present then 1 else 0) (c.act a) := by
  obtain ⟨hsession, hothers⟩ := Session.lapsed_act h ((c.revives_answer a).trans ha)
  have hlook : Effect.keyLook ∉ (c.session.act (c.answer a)).2 := by
    intro hmem
    have hother := Effect.mem_others_iff.mpr ⟨hmem, rfl⟩
    rw [hothers] at hother
    cases hother
  refine ⟨?_, ?_, ?_, (c.session.act (c.answer a)).2.reverse, c.told_act a, ?_⟩
  · rw [session_act]
    cases a <;> exact hsession
  · have hlooked : c.looked a = c.keypad := by
      unfold looked keypadAfter
      split
      · rw [if_neg (by simpa using hlook)]
      · rw [if_neg (by simpa using hlook)]
      · rfl
    rw [act_eq, settle, keypad_foldl_hear]
    exact hlooked
  · rw [tracer_act]
    simp only [Tracer.seeAll_of_others_eq_nil hothers, Option.map_id']
  · rw [Effect.others, List.filter_reverse]
    exact List.reverse_eq_nil_iff.mpr hothers

/-- A halted console lapses in every history that loads no program. -/
theorem lapsed_actAll {c : Console σ κ} {reason : HaltReason} (h : c.session.status = .halted reason) {actions : List (Action Nat)}
    (hload : ∀ a ∈ actions, a.revives = false) :
    c.Lapsed (actions.count .tick) (actions.count .present) (c.actAll actions) := by
  induction actions generalizing c with
  | nil => exact .refl c
  | cons a rest ih =>
    have hfirst := lapsed_act h (hload a List.mem_cons_self)
    have hrest := ih (hfirst.session.status.trans h) fun b hb => hload b (List.mem_cons_of_mem a hb)
    have hboth := hfirst.trans hrest
    rw [Nat.add_comm, Nat.add_comm (if a = .present then 1 else 0)] at hboth
    show c.Lapsed _ _ ((c.act a).actAll rest)
    simp only [List.count_cons, beq_iff_eq]
    exact hboth

/-- A step of a halted console does nothing. -/
theorem step_of_halted {c : Console σ κ} {reason : HaltReason} (h : c.session.status = .halted reason) (now : Nat) :
    c.step now = c := by
  simp only [step, Session.step_of_halted h]
  rfl

omit [Surface σ] in
/-- A poll of a halted console does nothing. -/
theorem poll_of_halted {c : Console σ κ} {reason : HaltReason} (h : c.session.status = .halted reason) (now : Nat) :
    c.poll now = c := by
  simp only [poll, Session.poll_of_halted h]
  rfl

omit [Surface σ] [Keypad κ] in
/-- A load succeeds if the program fits, and then the session runs. -/
theorem load_of_fits (c : Console σ κ) {program : List UInt8} {address : UInt16} (h : Memory.Fits program address) :
    (c.load program address).1 = none ∧ (c.load program address).2.session.status = .running := by
  rw [load, Session.load_of_ok (h.load_eq_ok c.session.memory)]
  exact ⟨rfl, rfl⟩

/-- Halted is absorbing, for every halted console with any devices. After any steps, ticks, polls, presents and loads that fail, the
session is halted for the same reason, and a further step or poll leaves the whole console as it is. The session is the one that
halted but for its timers, which have counted the ticks down to zero, and its surface, which was presented and nothing else; so the
surface still shows all that its presents keep. The keypad was not looked at, the observer has seen nothing, and nobody but the
speaker was told anything. Only a load that succeeds makes the session run again, and a load succeeds exactly when the program fits. -/
theorem halted_is_absorbing {c : Console σ κ} {reason : HaltReason} (h : c.session.status = .halted reason) :
    (∀ actions : List (Action Nat), (∀ a ∈ actions, a.revives = false) →
      let d := c.actAll actions
      d.session.status = .halted reason ∧
      (∀ now, d.step now = d ∧ d.poll now = d) ∧
      d.session = { c.session with timers := d.session.timers, surface := d.session.surface } ∧
      (∀ timer, (d.session.timers.left timer).toNat = (c.session.timers.left timer).toNat - actions.count .tick) ∧
      d.session.surface = (fun v => (Surface.present v).2)^[actions.count .present] c.session.surface ∧
      (∀ (π : Type) (picture : σ → π), Surface.Keeps picture → picture d.session.surface = picture c.session.surface) ∧
      d.keypad = c.keypad ∧ d.tracer = c.tracer ∧
      ∃ told, d.told = told ++ c.told ∧ Effect.others told = []) ∧
    (∀ a : Action Nat, (c.act a).session.status = .running ↔
      ∃ program address, a = .load program address ∧ (c.load program address).1 = none) ∧
    (∀ a : Action Nat, a.revives = true ↔
      ∃ program address, a = .load program address ∧ (c.load program address).1 = none) := by
  have hloads (a : Action Nat) : a.revives = true ↔
      ∃ program address, a = .load program address ∧ (c.load program address).1 = none := by
    constructor
    · intro ha
      cases a with
      | load program address => exact ⟨program, address, rfl, (c.load_of_fits (of_decide_eq_true ha)).1⟩
      | _ => cases ha
    · rintro ⟨program, address, rfl, hnone⟩
      by_cases hfits : Memory.Fits program address
      · exact decide_eq_true hfits
      · obtain ⟨f, hf⟩ := c.session.exists_load_eq hfits
        rw [load, hf] at hnone
        cases hnone
  refine ⟨fun actions hno => ?_, fun a => ?_, hloads⟩
  · intro d
    obtain ⟨hsession, hkeypad, htracer, htold⟩ := lapsed_actAll h hno
    have hhalted : d.session.status = .halted reason := hsession.status.trans h
    refine ⟨hhalted, fun now => ⟨step_of_halted hhalted now, poll_of_halted hhalted now⟩, hsession.same, hsession.left,
      hsession.surface, fun π picture hkeeps => ?_, hkeypad, htracer, htold⟩
    rw [hsession.surface]
    exact hkeeps.iterate _ _
  · rw [← hloads]
    cases ha : a.revives with
    | false =>
      have hstatus := (lapsed_act h ha).session.status.trans h
      refine iff_of_false (fun hrunning => ?_) Bool.false_ne_true
      rw [hstatus] at hrunning
      cases hrunning
    | true =>
      obtain ⟨program, address, rfl, -⟩ := (hloads a).mp ha
      exact ⟨fun _ => rfl, fun _ => (c.load_of_fits (of_decide_eq_true ha)).2⟩

/-- A console with Esc down, whose program sets the delay timer to 5 and the sound timer to 2 and then runs into a word that is no
instruction. -/
def stranded (surface : σ) : Console σ HeldKey :=
  (start .standard (.ofSeed 0) surface ⟨some .cancel⟩ .working).observe.actAll
    [.load [0x60, 0x05, 0xf0, 0x15, 0x61, 0x02, 0xf1, 0x18, 0xff, 0xff] 0x200, .step 0, .step 0, .step 0, .step 0, .step 0]

/-- A terminal behind a link that breaks at the first present. -/
def faint : Linked (TerminalDisplay .standard) := .carrying (.blank .standard fun _ => none) (some 0) ⟨"BrokenPipe", "gone"⟩

/-- A cancel that is latched all the time, a program that is one byte too long and three ticks do not change why it halted; a program
that fits makes it run. The pixels are kept, by a framebuffer and by a terminal that cannot be reached. -/
theorem halted_is_absorbing_stranded :
    let c := stranded (Framebuffer.blank .standard)
    let later : List (Action Nat) :=
      [.step 1, .tick, .poll 2, .present, .load [0x00, 0xe0] 0xfff, .tick, .poll 3, .tick, .step 4]
    c.session.status = .halted (.fault (.undefinedOpcode 0xffff 0x208)) ∧ (∀ a ∈ later, a.revives = false) ∧
      (c.actAll later).session.status = .halted (.fault (.undefinedOpcode 0xffff 0x208)) ∧
      ((c.actAll later).session.timers.left .delay).toNat = 2 ∧ ((c.actAll later).session.timers.left .sound).toNat = 0 ∧
      (c.actAll later).session.surface = c.session.surface ∧ (c.actAll later).tracer = c.tracer ∧
      (c.act (.load [0x00, 0xe0] 0xffe)).session.status = .running ∧
      ((stranded faint).actAll later).session.surface.surface.framebuffer.bytes =
        (stranded faint).session.surface.surface.framebuffer.bytes := by
  intro c later
  have hhalted : c.session.status = .halted (.fault (.undefinedOpcode 0xffff 0x208)) := by decide +kernel
  have hfaint : (stranded faint).session.status = .halted (.fault (.undefinedOpcode 0xffff 0x208)) := by decide +kernel
  have hno : ∀ a ∈ later, a.revives = false := by decide
  obtain ⟨hlater, hrunning, hrevives⟩ := halted_is_absorbing hhalted
  obtain ⟨hstatus, -, -, hleft, -, hpicture, -, htracer, -⟩ := hlater later hno
  obtain ⟨-, -, -, -, -, hpixels, -⟩ := (halted_is_absorbing hfaint).1 later hno
  have hkeeps : Surface.Keeps fun l : Linked (TerminalDisplay .standard) => l.surface.framebuffer.bytes :=
    (Surface.keeps_terminal .standard).linked
  have hkept := hpixels _ _ hkeeps
  have hdelay : (c.session.timers.left .delay).toNat - later.count .tick = 2 := by decide +kernel
  have hsound : (c.session.timers.left .sound).toNat - later.count .tick = 0 := by decide +kernel
  refine ⟨hhalted, hno, hstatus, (hleft .delay).trans hdelay, (hleft .sound).trans hsound,
    hpicture _ id (Surface.keeps_framebuffer .standard), htracer, ?_, hkept⟩
  exact (hrunning _).mpr ((hrevives _).mp (by decide))

end Console

end ChipEight
