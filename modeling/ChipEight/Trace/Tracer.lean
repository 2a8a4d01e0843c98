import ChipEight.Instruction.Mnemonic
import ChipEight.Session.Effect
import ChipEight.Trace.EntryPoints

/-!
# The tracer

An observer of a session. It collects the entry points, counts the executed instructions, and writes a line for each.
-/

namespace ChipEight

/-- What a tracer has seen. -/
structure Tracer where
  entryPoints : EntryPoints
  /-- How many instructions were executed. The number has no bound here. A count of 64 bits is the same for the first 2 ^ 64
  instructions, which take more than a hundred years at the greatest rate. -/
  steps : Nat
  deriving DecidableEq, Repr

namespace Tracer

/-- Nothing was seen yet. -/
def empty : Tracer := ⟨.empty, 0⟩

/-- The values of all registers, in brackets. -/
def registersText (v : Vector UInt8 16) : String := "[" ++ ", ".intercalate (v.toList.map fun b => Text.hex 2 b.toNat) ++ "]"

/-- The line of an executed instruction. It starts with a mark if it stands at a known entry point. -/
def line (known : EntryPoints) (step : StepRecord) : String :=
  (if known.contains step.address then "@" else " ") ++ Text.hex 4 step.address.toNat ++ ": " ++
    Text.hex 4 step.opcode.word.toNat ++ "  " ++ Text.column 20 step.instruction.text ++ " i=" ++
    Text.hex 4 step.registers.index.toNat ++ " v=" ++ registersText step.registers.v

/-- Sees an effect: the tracer after it, and the line it writes if it writes one. -/
def see (t : Tracer) : Effect → Tracer × Option String
  | .entryPoint address => ({ t with entryPoints := t.entryPoints.insert address }, none)
  | .executed step => ({ t with steps := t.steps + 1 }, some (line t.entryPoints step))
  | _ => (t, none)

end Tracer

end ChipEight
