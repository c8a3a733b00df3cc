import BitcoinSpend.Proofs.Chunk.UniquePush
import BitcoinSpend.Proofs.Spend.Operands
import BitcoinSpend.Proofs.Spend.StepOutcomes

/-!
# Pushes where shortest forms are asked for

A push that is run puts its string on the stack, unless it is not in shortest form and
a flag asks for that. Then the chunk that is built for a string is the only one of a
script that pushes it, and no other has as few bytes.
-/

set_option autoImplicit false

namespace BitcoinSpend.Spend

variable {chunk : Chunk} {value : Bytes} {frame : Frame} {state : State}

namespace Exec

/-- A push that is run under the flag succeeds in shortest form only, and fails without touching the
state. -/
private theorem chunk_of_pushes (minimal : frame.setup.flags.has Flags.minimalData = true)
    (running : runs chunk frame state = true) (pushes : chunk.pushValue? = some value) :
    Exec.chunk chunk frame state =
      if chunk.isMinimal then .ok .next { state with stack := state.stack.cons value }
      else .error (.pushNotMinimal chunk.operand.length chunk.op) state := by
  obtain ⟨isPush, small⟩ := ofOpcode_of_pushes pushes
  have uncounted : state.withCount (countAfter chunk state.opCount) = state := by
    rw [countAfter, if_neg (UInt8.not_lt.mpr small)]
    rfl
  have other : Instruction.push ≠ .returnEarly := by decide
  have pushed := pushChunk_run pushes frame state
  rw [minimal, Bool.true_and] at pushed
  rw [chunk_of_runs running, uncounted, isPush]
  cases form : chunk.isMinimal with
  | true =>
      rw [form] at pushed
      exact run_of_straight other pushed
  | false =>
      rw [form] at pushed
      exact run_of_fault other pushed

end Exec

/-- The chunk that is built for a string pushes it, counts as shortest and is read back from its
bytes. Any other chunk of a script that pushes the string does not count as shortest, has more
bytes, and fails where it is run and shortest forms are asked for. -/
theorem push_uniquely_shortest :
    (∀ value : Bytes, value.length < UInt32.size →
      (Chunk.push value).pushValue? = some value ∧ (Chunk.push value).isMinimal = true ∧
        Chunk.decode (Chunk.push value).encode = .ok [Chunk.push value]) ∧
    ∀ (bytes : Bytes) (chunks : List Chunk), Chunk.decode bytes = .ok chunks →
      ∀ chunk ∈ chunks, ∀ value : Bytes, chunk.pushValue? = some value →
        (chunk.isMinimal = true ↔ chunk = Chunk.push value) ∧
        (chunk ≠ Chunk.push value →
          (Chunk.push value).encode.length < chunk.encode.length) ∧
        ∀ (frame : Frame) (state : State), frame.setup.flags.has Flags.minimalData = true →
          Exec.runs chunk frame state = true →
            Exec.chunk chunk frame state =
              if chunk = Chunk.push value then
                .ok .next { state with stack := state.stack.cons value }
              else .error (.pushNotMinimal chunk.operand.length chunk.op) state := by
  refine ⟨fun value short => ⟨Chunk.pushValue?_push value, Chunk.isMinimal_push value, ?_⟩, ?_⟩
  · have alone : Chunk.encodeAll [Chunk.push value] = (Chunk.push value).encode :=
      List.append_nil _
    have shortAll : ∀ item ∈ [value], item.length < UInt32.size :=
      fun item member => List.mem_singleton.mp member ▸ short
    rw [← alone]
    exact Script.chunks_of_ofPushes (Script.ofPushes_eq_ok_iff.mpr ⟨shortAll, rfl⟩)
  · intro bytes chunks splits chunk member value pushes
    have whole : Script.chunks ⟨bytes⟩ = .ok chunks := splits
    have sized := (Script.chunks_eq_ok_iff.mp whole).1.sized_of_pushes member pushes
    have unique := Chunk.isMinimal_iff_eq_push sized pushes
    refine ⟨unique, Chunk.length_encode_push_lt sized pushes, fun frame state minimal running => ?_⟩
    rw [Exec.chunk_of_pushes minimal running pushes]
    exact if_congr unique rfl rfl

/-- Seven is pushed by an opcode alone, and not with a length in a field of its own. -/
theorem push_uniquely_shortest_seven :
    let frame := Frame.bare Flags.minimalData 100
    let state := State.initial frame.setup.numberRule
    let chunk : Chunk := ⟨Opcode.pushData1, some [7]⟩
    ([7] : Bytes).length < UInt32.size ∧ Chunk.decode [0x4c, 0x01, 0x07] = .ok [chunk] ∧
      chunk.pushValue? = some [7] ∧ frame.setup.flags.has Flags.minimalData = true ∧
      Exec.runs chunk frame state = true ∧
      Chunk.decode (Chunk.push [7]).encode = .ok [Chunk.push [7]] ∧ chunk.isMinimal = false ∧
      (Chunk.push [7]).encode.length < chunk.encode.length ∧
      Exec.chunk chunk frame state = .error (.pushNotMinimal 1 Opcode.pushData1) state := by
  intro frame state chunk
  have short : ([7] : Bytes).length < UInt32.size := by decide
  have splits : Chunk.decode [0x4c, 0x01, 0x07] = .ok [chunk] := by cbv
  have pushes : chunk.pushValue? = some [7] := rfl
  have minimal : frame.setup.flags.has Flags.minimalData = true := by decide
  have running : Exec.runs chunk frame state = true := by decide +kernel
  have other : chunk ≠ Chunk.push [7] := by decide
  obtain ⟨builds, unique⟩ := push_uniquely_shortest
  obtain ⟨isMinimal, longer, ran⟩ := unique _ _ splits chunk List.mem_cons_self _ pushes
  refine ⟨short, splits, pushes, minimal, running, (builds [7] short).2.2, ?_, longer other, ?_⟩
  · exact Bool.eq_false_iff.mpr fun form => other (isMinimal.mp form)
  · rw [ran frame state minimal running, if_neg other]
    rfl

end BitcoinSpend.Spend
