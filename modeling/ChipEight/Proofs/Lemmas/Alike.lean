import ChipEight.Proofs.Lemmas.Execute
import ChipEight.Session.Action

/-!
# Two sessions side by side

Two sessions are alike when they hold the same but for their timers and their dialects, and their surfaces cannot be told apart by
drawing (`Session.Alike`). An instruction that uses no timer, or finds the same timers, and that depends on no choice that the two
dialects make differently, leaves alike sessions alike and tells the same in both (`Session.alike_step`). What happens to the timers
is a matter of the instruction and the registers alone (`Session.timers_execute`).
-/

namespace ChipEight

variable {σ τ : Type}

/-! ## Surfaces that show the same -/

namespace Surface

/-- That drawing does not tell related surfaces apart: they answer a plot alike, and they are related again after a plot, a clear
or a present of both. The presents may well come to different answers. -/
structure Indistinct [Surface σ] [Surface τ] (R : σ → τ → Prop) : Prop where
  answer : ∀ {a b}, R a b → ∀ x y, (plot a x y).1 = (plot b x y).1
  plot : ∀ {a b}, R a b → ∀ x y, R (plot a x y).2 (plot b x y).2
  clear : ∀ {a b}, R a b → R (clear a) (clear b)
  present : ∀ {a b}, R a b → R (present a).2 (present b).2

/-- A surface shows the same as itself. -/
theorem indistinct_eq (σ : Type) [Surface σ] : Indistinct (Eq : σ → σ → Prop) where
  answer h _ _ := h ▸ rfl
  plot h _ _ := h ▸ rfl
  clear h := h ▸ rfl
  present h := h ▸ rfl

variable [Surface σ] [Surface τ] {R : σ → τ → Prop}

/-- Any number of plots is answered alike and leaves related surfaces. -/
theorem Indistinct.plotAll (hR : Indistinct R) {a : σ} {b : τ} (h : R a b) (points : List (Nat × Nat)) :
    (plotAll a points).1 = (plotAll b points).1 ∧ R (plotAll a points).2 (plotAll b points).2 := by
  induction points generalizing a b with
  | nil => exact ⟨rfl, h⟩
  | cons point rest ih =>
    obtain ⟨hothers, hrest⟩ := ih (hR.plot h point.1 point.2)
    refine ⟨?_, hrest⟩
    simp only [Surface.plotAll, hR.answer h, hothers]

end Surface

/-! ## The choices of a dialect -/

/-- The choices that a dialect makes. -/
inductive Choice where
  | shift
  | index
  | height
  deriving DecidableEq

/-- What a dialect says about a choice. -/
def Dialect.says (d : Dialect) : Choice → Bool
  | .shift => d.shiftsInPlace
  | .index => d.keepsIndex
  | .height => d.zeroHeightIsSixteen

namespace Instruction

/-- The choice that an instruction depends on, if there is one: 8xy6 and 8xyE on the way to shift, Fx33, Fx55 and Fx65 on what
becomes of the index, and Dxy0, but no sprite of another height, on the rows of a sprite of height 0. -/
def choice? : Instruction → Option Choice
  | .operate .shiftRight _ _ | .operate .shiftLeft _ _ => some .shift
  | .decimal _ | .store _ | .restore _ => some .index
  | .draw _ _ n => if n = 0 then some .height else none
  | _ => none

/-- Whether an instruction depends on a choice that two dialects make differently. -/
def distinguishes (d d' : Dialect) (i : Instruction) : Bool := i.choice?.any fun choice => d.says choice != d'.says choice

/-- Dialects that an instruction does not distinguish say the same about its choice. -/
theorem says_eq {d d' : Dialect} {i : Instruction} {choice : Choice} (h : i.distinguishes d d' = false)
    (hc : i.choice? = some choice) : d.says choice = d'.says choice := by
  rw [distinguishes, hc, Option.any_some] at h
  simpa using h

/-- A dialect makes every choice as it makes it itself. -/
theorem distinguishes_self (d : Dialect) (i : Instruction) : i.distinguishes d d = false := by
  rw [distinguishes]
  cases i.choice? with
  | none => rfl
  | some choice => exact bne_self_eq_false _

/-- Whether an instruction reads or sets a timer. -/
def usesTimers : Instruction → Bool
  | .readDelay _ | .setDelay _ | .setSound _ => true
  | _ => false

/-- The timers after an instruction. -/
def timersAfter (r : Registers) (t : Timers) : Instruction → Timers
  | .setDelay x => t.setDelay (r.get x)
  | .setSound x => (t.setSound (r.get x)).1
  | _ => t

theorem timersAfter_of_not_usesTimers {i : Instruction} (hi : i.usesTimers = false) (r : Registers) (t : Timers) :
    i.timersAfter r t = t := by
  cases i with
  | readDelay | setDelay | setSound => cases hi
  | _ => rfl

end Instruction

/-- An operation does the same in dialects that it does not distinguish. -/
theorem Registers.operate_congr {d d' : Dialect} {op : Operation} {x y : Register}
    (h : (Instruction.operate op x y).distinguishes d d' = false) (r : Registers) :
    r.operate d op x y = r.operate d' op x y := by
  cases op with
  | shiftRight =>
    have hd : d.shiftsInPlace = d'.shiftsInPlace := Instruction.says_eq h rfl
    simp only [operate, shiftRight, hd]
  | shiftLeft =>
    have hd : d.shiftsInPlace = d'.shiftsInPlace := Instruction.says_eq h rfl
    simp only [operate, shiftLeft, hd]
  | _ => rfl

namespace Transfer

variable {d d' : Dialect} (h : d.keepsIndex = d'.keepsIndex) (m : Memory) (r : Registers)
include h

theorem advance_congr (count : Nat) : advance d r count = advance d' r count := by
  simp only [advance, h]

theorem storeDecimal_congr (value : UInt8) : storeDecimal d m r value = storeDecimal d' m r value := by
  simp only [storeDecimal, advance_congr h]

theorem store_congr (lo hi : Register) : store d m r lo hi = store d' m r lo hi := by
  simp only [store, advance_congr h]

theorem restore_congr (lo hi : Register) : restore d m r lo hi = restore d' m r lo hi := by
  simp only [restore, advance_congr h]

end Transfer

namespace Sprite

/-- Dialects that a sprite does not distinguish give it as many rows. -/
theorem rows_congr {d d' : Dialect} {x y : Register} {n : UInt8} (h : (Instruction.draw x y n).distinguishes d d' = false) :
    rows d n = rows d' n := by
  unfold rows
  split
  · rename_i hn
    have hd : d.zeroHeightIsSixteen = d'.zeroHeightIsSixteen := Instruction.says_eq h (if_pos hn)
    rw [hd]
  · rfl

/-- A sprite drawn on related surfaces finds the same fault on both, or sets the same flag and leaves related surfaces. -/
theorem draw_cases [Surface σ] [Surface τ] {R : σ → τ → Prop} (hR : Surface.Indistinct R) {a : σ} {b : τ} (hab : R a b)
    {d d' : Dialect} {n : UInt8} (hrows : rows d n = rows d' n) (m : Memory) (r : Registers) (x y : Register) :
    (∃ f, draw d m a r x y n = (r.setFlag false, .error f) ∧ draw d' m b r x y n = (r.setFlag false, .error f)) ∨
      ∃ r' a' b', draw d m a r x y n = (r', .ok a') ∧ draw d' m b r x y n = (r', .ok b') ∧ R a' b' := by
  unfold draw
  rw [hrows]
  cases m.read r.index.toNat (rows d' n) with
  | error f => exact Or.inl ⟨f, rfl, rfl⟩
  | ok bytes =>
    obtain ⟨hflag, hshow⟩ := hR.plotAll hab (points (r.get x).toNat (r.get y).toNat bytes)
    exact Or.inr ⟨_, _, _, rfl, by rw [hflag], hshow⟩

end Sprite

attribute [ext] Timers

/-! ## Sessions that are alike -/

/-- That two sessions hold the same, apart from their timers and dialects, and show the same. -/
structure Session.Alike (R : σ → τ → Prop) (s : Session σ) (t : Session τ) : Prop where
  memory : s.memory = t.memory
  registers : s.registers = t.registers
  stack : s.stack = t.stack
  random : s.random = t.random
  status : s.status = t.status
  surface : R s.surface t.surface

/-- That two executions come to alike sessions, tell the same and give the same reason to halt. -/
structure Execution.Alike (R : σ → τ → Prop) (e : Execution σ) (f : Execution τ) : Prop where
  session : e.session.Alike R f.session
  effects : e.effects = f.effects
  halt : e.halt = f.halt

variable {R : σ → τ → Prop}

namespace Session

variable {s : Session σ} {t : Session τ}

theorem Alike.halt (h : s.Alike R t) (reason : HaltReason) : (s.halt reason).Alike R (t.halt reason) :=
  { h with status := rfl }

theorem Alike.withRegisters (h : s.Alike R t) (r : Registers) : (s.withRegisters r).Alike R (t.withRegisters r) :=
  { h with registers := rfl }

theorem Alike.withMemory (h : s.Alike R t) (m : Memory) (r : Registers) :
    Alike R { s with memory := m, registers := r } { t with memory := m, registers := r } :=
  { h with memory := rfl, registers := rfl }

theorem Alike.withSurface (h : s.Alike R t) (r : Registers) {a : σ} {b : τ} (hab : R a b) :
    Alike R { s with registers := r, surface := a } { t with registers := r, surface := b } :=
  { h with registers := rfl, surface := hab }

theorem Alike.withRandom (h : s.Alike R t) (r : Registers) (g : ByteStream) :
    Alike R { s with registers := r, random := g } { t with registers := r, random := g } :=
  { h with registers := rfl, random := rfl }

theorem Alike.withTimers (h : s.Alike R t) (p q : Timers) : Alike R { s with timers := p } { t with timers := q } :=
  ⟨h.memory, h.registers, h.stack, h.random, h.status, h.surface⟩

theorem Alike.advance (h : s.Alike R t) : s.advance.Alike R t.advance := by
  unfold Session.advance
  rw [h.registers]
  exact h.withRegisters _

theorem Alike.fetch (h : s.Alike R t) : s.fetch = t.fetch := by
  simp only [Session.fetch, h.memory, h.registers]

/-- Alike sessions on equal surfaces with equal timers and dialects are equal. -/
theorem Alike.eq {t : Session σ} (h : s.Alike Eq t) (htimers : s.timers = t.timers) (hdialect : s.dialect = t.dialect) :
    s = t := by
  cases s
  cases t
  obtain ⟨rfl, rfl, rfl, rfl, rfl, rfl⟩ := h
  cases htimers
  cases hdialect
  rfl

end Session

namespace Execution

variable {s : Session σ} {t : Session τ}

theorem Alike.proceed (h : s.Alike R t) (effects : List Effect) : (proceed s effects).Alike R (proceed t effects) :=
  ⟨h, rfl, rfl⟩

theorem Alike.stop (h : s.Alike R t) (reason : HaltReason) (effects : List Effect) :
    (stop s reason effects).Alike R (stop t reason effects) :=
  ⟨h, rfl, rfl⟩

theorem Alike.ofRegisters (h : s.Alike R t) (effects : List Effect) (e : Except Fault Registers) :
    (ofRegisters s effects e).Alike R (ofRegisters t effects e) := by
  cases e with
  | error f => exact Alike.stop h _ _
  | ok r => exact Alike.proceed (h.withRegisters r) _

theorem Alike.ofFlow (h : s.Alike R t) (effects : List Effect) (e : Except Fault (Registers × CallStack)) :
    (ofFlow s effects e).Alike R (ofFlow t effects e) := by
  cases e with
  | error f => exact Alike.stop h _ _
  | ok p => exact ⟨{ h with registers := rfl, stack := rfl }, rfl, rfl⟩

theorem Alike.ofGate (h : s.Alike R t) (e : Except Fault Gate) : (ofGate s e).Alike R (ofGate t e) := by
  rcases e with f | ⟨r⟩ | _
  · exact Alike.stop h _ _
  · exact Alike.proceed (h.withRegisters r) _
  · exact Alike.stop h _ _

theorem Alike.closed {e : Execution σ} {f : Execution τ} (h : e.Alike R f) : e.closed.Alike R f.closed := by
  unfold Execution.closed
  rw [h.halt]
  split
  · exact h.session
  · exact h.session.halt _

theorem timers_closed (e : Execution σ) : e.closed.timers = e.session.timers := by
  unfold closed
  split <;> rfl

theorem dialect_closed (e : Execution σ) : e.closed.dialect = e.session.dialect := by
  unfold closed
  split <;> rfl

end Execution

namespace Session

/-- That a step executes no instruction of a kind. -/
def ExecutesNo (s : Session σ) (kind : Instruction → Bool) : Prop :=
  ∀ op i, s.status = .running → s.fetch = .ok op → Instruction.decode op = some i → kind i = false

variable [Surface σ] [Surface τ]

/-- Alike sessions in which an instruction finds the same timers, if it uses them, and the same choice, if it depends on one, execute
it to alike ends. -/
theorem alike_execute (hR : Surface.Indistinct R) {s : Session σ} {t : Session τ} (h : s.Alike R t) {i : Instruction}
    (htimers : i.usesTimers = true → s.timers = t.timers) (hdialect : i.distinguishes s.dialect t.dialect = false)
    (address : UInt16) (latched : Option Keypress) :
    (s.execute address latched i).Alike R (t.execute address latched i) := by
  obtain ⟨m, r, k, p, d, g, a, status⟩ := s
  obtain ⟨m', r', k', p', d', g', b, status'⟩ := t
  -- from here on the two differ in the timers, the dialect and the surface only
  obtain ⟨rfl, rfl, rfl, rfl, rfl, hab⟩ := id h
  cases i with
  | clear => exact .proceed (h.withSurface r (hR.clear hab)) []
  | ret => exact .ofFlow h _ _
  | call target => exact .ofFlow h _ _
  | jump target => exact .ofRegisters h _ _
  | jumpIndirect target => exact .ofRegisters h _ _
  | skipIfByte x byte => exact .ofRegisters h _ _
  | skipUnlessByte x byte => exact .ofRegisters h _ _
  | skipIfSame x y => exact .ofRegisters h _ _
  | skipUnlessSame x y => exact .ofRegisters h _ _
  | skipIfKey x => exact .ofGate h _
  | skipUnlessKey x => exact .ofGate h _
  | waitKey x => exact .ofGate h _
  | operate op x y =>
    simp only [execute, Registers.operate_congr hdialect]
    exact .proceed (h.withRegisters _) _
  | random x mask => exact .proceed (h.withRandom _ _) []
  | draw x y n =>
    rcases Sprite.draw_cases hR hab (Sprite.rows_congr hdialect) m r x y with ⟨f, hs, ht⟩ | ⟨r', a', b', hs, ht, hshow⟩
    · simp only [execute, hs, ht]
      exact .stop (h.withRegisters _) _ _
    · simp only [execute, hs, ht]
      exact .proceed (h.withSurface r' hshow) _
  | readDelay x =>
    cases htimers rfl
    exact .proceed (h.withRegisters _) _
  | setDelay x => exact .proceed (h.withTimers _ _) []
  | setSound x => exact .proceed (h.withTimers _ _) [_]
  | decimal x =>
    simp only [execute, Transfer.storeDecimal_congr (Instruction.says_eq hdialect rfl)]
    split
    · exact .proceed (h.withMemory _ _) _
    · exact .stop h _ _
  | store x =>
    simp only [execute, Transfer.store_congr (Instruction.says_eq hdialect rfl)]
    split
    · exact .proceed (h.withMemory _ _) _
    · exact .stop (h.withMemory _ r) _ _
  | restore x =>
    simp only [execute, Transfer.restore_congr (Instruction.says_eq hdialect rfl)]
    split
    · exact .proceed (h.withRegisters _) _
    · exact .stop (h.withRegisters _) _ _
  | stop x => exact .stop h _ _
  | nop => exact .proceed h _
  | setPitch x => exact .proceed h _
  | extension e => exact .proceed h _
  | _ => exact .proceed (h.withRegisters _) _

omit [Surface τ] in
/-- The timers after an execution are those after its instruction. -/
theorem timers_execute (s : Session σ) (address : UInt16) (latched : Option Keypress) (i : Instruction) :
    (s.execute address latched i).session.timers = i.timersAfter s.registers s.timers := by
  have h := leaves_execute s address latched i
  cases i with
  | setDelay x => rfl
  | setSound x => rfl
  | _ => exact Timers.ext (h.delay rfl) (h.sound rfl)

/-- Alike sessions in which a step finds the same timers, if it uses them, and the same choice, if it depends on one, make alike
steps that tell the same. -/
theorem alike_step (hR : Surface.Indistinct R) {s : Session σ} {t : Session τ} (h : s.Alike R t)
    (htimers : s.timers = t.timers ∨ s.ExecutesNo Instruction.usesTimers)
    (hdialect : s.ExecutesNo (Instruction.distinguishes s.dialect t.dialect)) (look : Option Keypress) :
    (s.step look).1.Alike R (t.step look).1 ∧ (s.step look).2 = (t.step look).2 := by
  rcases s.step_cases look with ⟨_, hh, e⟩ | ⟨_, hr, hf, e⟩ | ⟨op, hr, hf, hd, e⟩ | ⟨op, i, hr, hf, hd, e⟩
  · rw [e, step_of_halted (h.status ▸ hh)]
    exact ⟨h, rfl⟩
  · rw [e, step_of_fetch_error (h.status ▸ hr) (h.fetch ▸ hf)]
    exact ⟨h.halt _, rfl⟩
  · rw [e, step_of_decode_none (h.status ▸ hr) (h.fetch ▸ hf) hd, h.registers]
    exact ⟨h.advance.halt _, rfl⟩
  · have hused : i.usesTimers = true → s.advance.timers = t.advance.timers := by
      intro hi
      rcases htimers with heq | hno
      · exact heq
      · cases hi.symm.trans (hno op i hr hf hd)
    have key := alike_execute hR h.advance hused (hdialect op i hr hf hd) s.registers.pc look
    rw [e, step_of_decode (h.status ▸ hr) (h.fetch ▸ hf) hd, ← h.registers]
    refine ⟨key.closed, ?_⟩
    rw [key.effects, key.session.registers]

omit [Surface τ] in
/-- No step changes the dialect. -/
theorem dialect_step (s : Session σ) (look : Option Keypress) : (s.step look).1.dialect = s.dialect := by
  rcases s.step_cases look with ⟨_, _, e⟩ | ⟨_, _, _, e⟩ | ⟨op, _, _, _, e⟩ | ⟨op, i, _, _, _, e⟩
  · rw [e]
  · rw [e]
    rfl
  · rw [e]
    rfl
  · rw [e, Execution.dialect_closed, (leaves_execute s.advance s.registers.pc look i).dialect]
    rfl

end Session

end ChipEight
