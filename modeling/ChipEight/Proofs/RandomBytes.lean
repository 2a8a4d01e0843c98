import ChipEight.Proofs.Lemmas.Turns
import ChipEight.Screen.Framebuffer

/-!
# Random bytes

A session takes its random bytes from one stream, and only Cxnn takes any: one byte each time, whatever the mask is. So the bytes that
the executed Cxnn see are those of the seed's key in order, over the whole life of the session (`Session.random_bytes_in_order`).
Loading does not start them again, and halting, waiting, ticks and faults do not use them up.
-/

namespace ChipEight

namespace ByteStream

/-- The stream after some bytes were taken. -/
def skip (s : ByteStream) : Nat → ByteStream
  | 0 => s
  | n + 1 => (s.skip n).next.2

theorem skip_succ (s : ByteStream) (n : Nat) : s.skip (n + 1) = (s.skip n).next.2 := rfl

theorem skip_skip (s : ByteStream) (m n : Nat) : (s.skip m).skip n = s.skip (m + n) := by
  induction n with
  | zero => rfl
  | succ n ih => rw [skip_succ, ih, Nat.add_succ, skip_succ]

theorem skip_eq (s : ByteStream) (n : Nat) : s.skip n = ⟨s.key, s.position + n⟩ := by
  induction n with
  | zero => rfl
  | succ n ih =>
    rw [skip_succ, ih]
    rfl

/-- After some bytes of a seed comes the byte at that place of its key. -/
theorem skip_ofSeed (seed : UInt64) (n : Nat) : (ofSeed seed).skip n = ⟨keyOfSeed seed, n⟩ := by
  rw [skip_eq, ofSeed, Nat.zero_add]

end ByteStream

variable {σ : Type}

/-- The instruction that takes a random byte is the only one of its kind. -/
theorem Instruction.owns_random_iff {i : Instruction} : i.owns .random = true ↔ ∃ x mask, i = .random x mask := by
  cases i with
  | random x mask => exact ⟨fun _ => ⟨x, mask, rfl⟩, fun _ => rfl⟩
  | _ => exact ⟨nofun, nofun⟩

namespace Turn

/-- Whether a turn executes the instruction that takes a random byte. -/
def isRandom (t : Turn σ) : Bool := t.instruction.owns .random

/-- A turn masks the first byte of a stream into a register, leaves the stream behind that byte, and goes on. -/
def TakesFrom [Surface σ] (t : Turn σ) (stream : ByteStream) : Prop :=
  ∃ x mask, t.instruction = .random x mask ∧ t.before.random = stream ∧
    t.after = { t.before with
      registers := (t.before.registers.set x (stream.next.1 &&& mask)).setPc (t.before.registers.pc + 2)
      random := stream.next.2 }

end Turn

namespace Session

/-- The turn that an action makes, if it makes one that takes a random byte. -/
def randomTurn? (s : Session σ) (a : Action (Option Keypress)) : Option (Turn σ) := (s.turnOf? a).filter Turn.isRandom

variable [Surface σ]

/-- The turns of a history that take a random byte, in order. -/
def randomTurns (s : Session σ) (actions : List (Action (Option Keypress))) : List (Turn σ) :=
  (s.turns actions).filter Turn.isRandom

theorem randomTurns_cons (s : Session σ) (a : Action (Option Keypress)) (rest : List (Action (Option Keypress))) :
    s.randomTurns (a :: rest) = (s.randomTurn? a).toList ++ (s.act a).1.randomTurns rest := by
  rw [randomTurns, turns, List.filter_append, randomTurn?, Option.toList_filter]
  rfl

/-! ## One action -/

/-- A turn that takes a random byte takes the next one of the session. -/
theorem takesFrom_of_randomTurn? {s : Session σ} {a : Action (Option Keypress)} {t : Turn σ} (h : s.randomTurn? a = some t) :
    t.TakesFrom s.random ∧ (s.act a).1.random = s.random.skip 1 := by
  obtain ⟨hturn, hrandom⟩ := Option.filter_eq_some_iff.mp h
  cases a with
  | step look =>
    have hafter := after_of_turn? hturn
    obtain ⟨op, i, hr, hf, hd, rfl⟩ := turn?_eq_some_iff.mp hturn
    obtain ⟨x, mask, rfl⟩ := Instruction.owns_random_iff.mp hrandom
    have hstep := congrArg Prod.fst (step_of_decode hr hf hd look)
    exact ⟨⟨x, mask, rfl, rfl, hafter.trans hstep⟩, congrArg Session.random hstep⟩
  | _ => cases hturn

/-- No other action takes a random byte, whatever becomes of it. -/
theorem random_act_of_randomTurn?_eq_none {s : Session σ} {a : Action (Option Keypress)} (h : s.randomTurn? a = none) :
    (s.act a).1.random = s.random := by
  cases a with
  | load program address =>
    simp only [act, load]
    split <;> rfl
  | step look =>
    simp only [act]
    rcases s.step_cases look with ⟨_, _, e⟩ | ⟨_, _, _, e⟩ | ⟨op, _, _, _, e⟩ | ⟨op, i, hr, hf, hd, e⟩
    · rw [e]
    · rw [e]
      rfl
    · rw [e]
      rfl
    · have hi : i.owns .random = false := by
        refine Bool.eq_false_iff.mpr fun hown => ?_
        have hsome : s.randomTurn? (.step look) = some ⟨s, look, op, i⟩ :=
          Option.filter_eq_some_iff.mpr ⟨turn?_eq_some_iff.mpr ⟨op, i, hr, hf, hd, rfl⟩, hown⟩
        cases h.symm.trans hsome
      obtain ⟨status, hclosed⟩ := (s.advance.execute s.registers.pc look i).closed_eq
      rw [e, hclosed]
      exact (leaves_execute s.advance s.registers.pc look i).random hi
  | poll look =>
    simp only [act, poll]
    split
    · rfl
    · dsimp only
      split <;> rfl
  | _ => rfl

/-- After one action a session is as many bytes further in its stream as the action took. -/
theorem random_act (s : Session σ) (a : Action (Option Keypress)) :
    (s.act a).1.random = s.random.skip (s.randomTurn? a).toList.length := by
  cases h : s.randomTurn? a with
  | none => exact random_act_of_randomTurn?_eq_none h
  | some t => exact (takesFrom_of_randomTurn? h).2

/-! ## A history -/

/-- After a history a session is as many bytes further in its stream as there were turns that took one. -/
theorem random_actAll (s : Session σ) (actions : List (Action (Option Keypress))) :
    (s.actAll actions).1.random = s.random.skip (s.randomTurns actions).length := by
  induction actions generalizing s with
  | nil => rfl
  | cons a rest ih => rw [actAll, ih, random_act, ByteStream.skip_skip, randomTurns_cons, List.length_append]

/-- Each of these turns takes the byte behind those that the turns before it took. -/
theorem takesFrom_randomTurns {s : Session σ} {actions : List (Action (Option Keypress))} {k : Nat} {t : Turn σ}
    (h : (s.randomTurns actions)[k]? = some t) : t.TakesFrom (s.random.skip k) := by
  induction actions generalizing s k with
  | nil => cases h
  | cons a rest ih =>
    rw [randomTurns_cons] at h
    cases hfirst : s.randomTurn? a with
    | none =>
      rw [hfirst] at h
      rw [← random_act_of_randomTurn?_eq_none hfirst]
      exact ih h
    | some first =>
      obtain ⟨htakes, hbehind⟩ := takesFrom_of_randomTurn? hfirst
      rw [hfirst] at h
      cases k with
      | zero =>
        cases h
        exact htakes
      | succ k =>
        have hrest := ih h
        rwa [hbehind, ByteStream.skip_skip, Nat.add_comm] at hrest

/-- In every history of a session that starts from a seed, the `k`-th Cxnn that is executed, counted from zero and over all programs
that are loaded, masks the byte at place `k` of the seed's key into its register, and changes nothing else but the program counter
and the place in the stream. Where the session is in the stream is the number of those that were executed. Any other action leaves it
there, whether it succeeds, fails or is refused. -/
theorem random_bytes_in_order (settings : Settings) (seed : UInt64) (entropy : ByteStream) (surface : σ)
    (actions : List (Action (Option Keypress))) :
    let key := ByteStream.keyOfSeed seed
    let s := (Session.start { settings with seed := some seed } entropy surface).1
    let w := (s.actAll actions).1
    (∀ (k : Nat) t, (s.randomTurns actions)[k]? = some t → ∃ x mask, t.instruction = .random x mask ∧
      t.before.random = ⟨key, k⟩ ∧
      t.after = { t.before with
        registers := (t.before.registers.set x (ByteStream.byteAt key k &&& mask)).setPc (t.before.registers.pc + 2)
        random := ⟨key, k + 1⟩ }) ∧
    w.random = ⟨key, (s.randomTurns actions).length⟩ ∧
    ∀ a, (∀ t ∈ w.turnOf? a, ∀ x mask, t.instruction ≠ .random x mask) → (w.act a).1.random = w.random := by
  intro key s w
  have hskip (n : Nat) : s.random.skip n = ⟨key, n⟩ := ByteStream.skip_ofSeed seed n
  refine ⟨fun k t h => ?_, (s.random_actAll actions).trans (hskip _), ?_⟩
  · have htakes := takesFrom_randomTurns h
    rw [hskip] at htakes
    exact htakes
  · intro a hno
    refine random_act_of_randomTurn?_eq_none (Option.eq_none_iff_forall_ne_some.mpr fun t ht => ?_)
    obtain ⟨hturn, hrandom⟩ := Option.filter_eq_some_iff.mp ht
    obtain ⟨x, mask, hi⟩ := Instruction.owns_random_iff.mp hrandom
    exact hno t hturn x mask hi

/-- The first two bytes of a seed. A second load does not start them again. -/
example :
    let s : Session (Framebuffer .standard) := (Session.start { Settings.standard with seed := some 7 } (.ofSeed 0) (.blank _)).1
    let w := (s.actAll [.load [0xc0, 0xff] 0x200, .step none, .load [0xc1, 0xff] 0x200, .step none]).1
    (w.registers.get 0, w.registers.get 1) = (190, 233) ∧
      (ByteStream.byteAt (ByteStream.keyOfSeed 7) 0, ByteStream.byteAt (ByteStream.keyOfSeed 7) 1) = (190, 233) := by
  decide +kernel

end Session

end ChipEight
