import ChipEight.Keypad.Latch
import Mathlib.Data.List.Induction

/-!
# What becomes of a cancel

The latch holds one key, the last one that was read. A cancel is latched until another key of the keypad is read, however much later
the looks are, and not a moment longer: a key that was typed after it, even one that arrived in the same batch, takes its place.
-/

namespace ChipEight

/-- What the keys of some batches mean, in the order in which they were read. Each batch comes with the time of the look that reads
it. -/
def meant (looks : List (List KeyEvent × Nat)) : List Keypress :=
  looks.flatMap fun look => look.1.filterMap KeyEvent.keypress?

theorem meant_append (looks more : List (List KeyEvent × Nat)) : meant (looks ++ more) = meant looks ++ meant more :=
  List.flatMap_append

theorem meant_singleton (look : List KeyEvent × Nat) : meant [look] = look.1.filterMap KeyEvent.keypress? := by
  simp [meant]

namespace KeyLatch

/-- The key that is held, whether or not its time is over. -/
def held (l : KeyLatch) : Option Keypress := l.latched.map Prod.fst

/-- The latch after some looks. -/
def after (l : KeyLatch) (looks : List (List KeyEvent × Nat)) : KeyLatch :=
  looks.foldl (fun l look => (l.look look.1 look.2).2) l

/-- The answers to some looks. -/
def answers (l : KeyLatch) : List (List KeyEvent × Nat) → List (Option Keypress)
  | [] => []
  | look :: rest => (l.look look.1 look.2).1 :: (l.look look.1 look.2).2.answers rest

/-! ## One look -/

/-- Of several events only the last one that means something counts. -/
theorem held_foldl_note (l : KeyLatch) (now : Nat) (arrived : List KeyEvent) :
    (arrived.foldl (note now) l).held = (arrived.filterMap KeyEvent.keypress?).getLast?.or l.held := by
  induction arrived using List.reverseRecOn with
  | nil => rfl
  | append_singleton arrived e ih =>
    rw [List.foldl_append, List.filterMap_append, List.foldl_cons, List.foldl_nil]
    cases hk : e.keypress? with
    | none => simp [note, hk, ih]
    | some k => simp [note, hk, held]

/-- A cancel is the answer exactly when it is held, at whatever time. -/
theorem answer_eq_cancel_iff (l : KeyLatch) (now : Nat) : (l.answer now).1 = some .cancel ↔ l.held = some .cancel := by
  obtain ⟨latched, hold⟩ := l
  rcases latched with _ | ⟨k | _, since⟩
  · simp [answer, held]
  · simp only [answer, held]
    split <;> simp
  · simp [answer, held]

/-- An answer does not take a cancel away, and does not bring one. -/
theorem held_answer_eq_cancel_iff (l : KeyLatch) (now : Nat) :
    (l.answer now).2.held = some .cancel ↔ l.held = some .cancel := by
  obtain ⟨latched, hold⟩ := l
  rcases latched with _ | ⟨k | _, since⟩
  · simp [answer, held]
  · simp only [answer, held]
    split <;> simp
  · simp [answer, held]

/-- A look answers with a cancel exactly when the last key it finds is one: the last of the batch it reads, or if there is none the
one that was held before. -/
theorem look_eq_cancel_iff (l : KeyLatch) (look : List KeyEvent × Nat) :
    (l.look look.1 look.2).1 = some .cancel ↔ (meant [look]).getLast?.or l.held = some .cancel := by
  rw [KeyLatch.look, answer_eq_cancel_iff, held_foldl_note, meant_singleton]

/-- After a look a cancel is held exactly when the last key it found is one. -/
theorem held_look_eq_cancel_iff (l : KeyLatch) (look : List KeyEvent × Nat) :
    (l.look look.1 look.2).2.held = some .cancel ↔ (meant [look]).getLast?.or l.held = some .cancel := by
  rw [KeyLatch.look, held_answer_eq_cancel_iff, held_foldl_note, meant_singleton]

/-! ## A run of looks -/

/-- If a cancel is held exactly when it is the last key of the looks so far, then one look more finds it last exactly when it is the
last key of these looks. -/
theorem or_held_eq_cancel_iff {l : KeyLatch} {looks : List (List KeyEvent × Nat)}
    (h : l.held = some .cancel ↔ (meant looks).getLast? = some .cancel) (look : List KeyEvent × Nat) :
    (meant [look]).getLast?.or l.held = some .cancel ↔ (meant (looks ++ [look])).getLast? = some .cancel := by
  rw [meant_append, List.getLast?_append, Option.or_eq_some_iff, Option.or_eq_some_iff, h]

/-- After some looks a cancel is held exactly when it is the last key that was read. -/
theorem held_after_eq_cancel_iff (hold : Nat) (looks : List (List KeyEvent × Nat)) :
    ((empty hold).after looks).held = some .cancel ↔ (meant looks).getLast? = some .cancel := by
  induction looks using List.reverseRecOn with
  | nil => simp [after, held, empty, meant]
  | append_singleton looks look ih =>
    have hafter : (empty hold).after (looks ++ [look]) = (((empty hold).after looks).look look.1 look.2).2 := by
      rw [after, List.foldl_append]
      rfl
    rw [hafter, held_look_eq_cancel_iff]
    exact or_held_eq_cancel_iff ih look

/-- The answer to a look is the one that the latch after the looks before it gives. -/
theorem getElem?_answers (l : KeyLatch) (looks : List (List KeyEvent × Nat)) (n : Nat) :
    (l.answers looks)[n]? = looks[n]?.map fun look => ((l.after (looks.take n)).look look.1 look.2).1 := by
  induction looks generalizing l n with
  | nil => rfl
  | cons look rest ih =>
    cases n with
    | zero => rfl
    | succ n => exact ih _ n

/-- A look answers with a cancel exactly when a cancel is the last key that was read, in this look and all before it. -/
theorem answers_eq_cancel_iff (hold : Nat) (looks : List (List KeyEvent × Nat)) {n : Nat} (hn : n < looks.length) :
    ((empty hold).answers looks)[n]? = some (some .cancel) ↔ (meant (looks.take (n + 1))).getLast? = some .cancel := by
  have hget : looks[n]? = some looks[n] := List.getElem?_eq_getElem hn
  have htake : looks.take (n + 1) = looks.take n ++ [looks[n]] := by
    rw [List.take_add_one, hget]
    rfl
  rw [getElem?_answers, hget, Option.map_some, Option.some.injEq, look_eq_cancel_iff, htake]
  exact or_held_eq_cancel_iff (held_after_eq_cancel_iff hold _) _

/-- In every run of looks, with any batches at any times, a look answers with a cancel exactly when a cancel is the last key that
was read so far. So all looks from the one that reads a cancel on answer with it exactly if none of them finds a key of the keypad
typed last. -/
theorem cancel_held_iff (hold : Nat) (looks : List (List KeyEvent × Nat)) :
    (∀ n, n < looks.length →
      (((empty hold).answers looks)[n]? = some (some .cancel) ↔ (meant (looks.take (n + 1))).getLast? = some .cancel)) ∧
    ((∀ n m, n ≤ m → m < looks.length → .cancel ∈ meant (looks.take (n + 1)) →
        ((empty hold).answers looks)[m]? = some (some .cancel)) ↔
      ∀ m, m < looks.length → .cancel ∈ meant (looks.take (m + 1)) →
        ∀ k, (meant (looks.take (m + 1))).getLast? ≠ some (.key k)) := by
  refine ⟨fun n hn => answers_eq_cancel_iff hold looks hn, ?_⟩
  constructor
  · intro hkept m hm hread k hlast
    have hcancel := (answers_eq_cancel_iff hold looks hm).mp (hkept m m (Nat.le_refl m) hm hread)
    rw [hlast] at hcancel
    cases hcancel
  · intro hno n m hnm hm hread
    -- what was read up to a look is also read up to every later one
    obtain ⟨later, hsplit⟩ : looks.take (n + 1) <+: looks.take (m + 1) := List.take_prefix_take_left (Nat.succ_le_succ hnm)
    have hlater : .cancel ∈ meant (looks.take (m + 1)) := by
      rw [← hsplit, meant_append]
      exact List.mem_append_left _ hread
    rw [answers_eq_cancel_iff hold looks hm]
    cases hlast : (meant (looks.take (m + 1))).getLast? with
    | none =>
      rw [List.getLast?_eq_none_iff.mp hlast] at hlater
      cases hlater
    | some k =>
      cases k with
      | key number => exact absurd hlast (hno m hm hlater number)
      | cancel => rfl

/-- Ctrl-C and then q in one batch, and Esc and then q in two: the q is latched, and the wish to end is lost. -/
theorem cancel_lost :
    (Keypress.cancel ∈ meant [([{ code := .char 'c', control := true }, { code := .char 'q' }], 0)] ∧
      (empty 150000000).answers [([{ code := .char 'c', control := true }, { code := .char 'q' }], 0)] = [some (.key 4)]) ∧
    (Keypress.cancel ∈ meant [([{ code := .escape }], 0)] ∧
      (empty 150000000).answers [([{ code := .escape }], 0), ([{ code := .char 'q' }], 1)] =
        [some .cancel, some (.key 4)]) := by
  decide +kernel

end KeyLatch

end ChipEight
