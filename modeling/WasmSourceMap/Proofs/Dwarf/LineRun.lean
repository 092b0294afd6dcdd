import WasmSourceMap.Dwarf.LineProgram
import WasmSourceMap.Proofs.Results

/-!
# Runs of line programs

The rows of a program, one instruction after the other (`rows_of_done`). Files that a program adds
are for those who look files up; the rows are the same with any files to begin with (`rows_from`).
-/

namespace WasmSourceMap.Dwarf

namespace LineMachine

/-- What an instruction does to the registers, and the row it emits, do not depend on the files. -/
lemma execute_registers {h : LineHeader} {m m' : LineMachine} (same : m.registers = m'.registers)
    (i : Instruction) :
    (m.execute h i).map (fun s => (s.1.registers, s.2)) =
      (m'.execute h i).map fun s => (s.1.registers, s.2) := by
  obtain ⟨r, files⟩ := m
  obtain ⟨r', files'⟩ := m'
  cases same
  cases i with
  | special adjusted =>
    simp only [execute, Except.map_bind]
    rfl
  | advanceByConstant =>
    simp only [execute, Except.map_bind]
    rfl
  | defineFile file =>
    by_cases old : h.version < 5
    · simp only [execute, if_pos old]
      rfl
    · simp only [execute, if_neg old]
  | _ => rfl

end LineMachine

namespace LineRun

variable {h : LineHeader} {l : Layout} {stop : Nat} {data : Bytes} {position next : Nat}

lemma rows_of_failed {m : LineMachine} {fault : Fault} (before : position < stop)
    (read : Instruction.read h l data position = .failed fault next) :
    (LineRun.from h l stop data position m).rows = .error fault := by
  rw [LineRun.from.eq_def, if_pos before]
  split
  · rename_i read'
    cases read.symm.trans read'
    rfl
  · rename_i read'
    cases read.symm.trans read'

lemma rows_of_done {m : LineMachine} {i : Instruction} (before : position < stop)
    (read : Instruction.read h l data position = .done i next) :
    (LineRun.from h l stop data position m).rows =
      m.execute h i >>= fun s =>
        (LineRun.from h l stop data next s.1).rows.map (s.2.toList ++ ·) := by
  rw [LineRun.from.eq_def, if_pos before]
  split
  · rename_i read'
    cases read.symm.trans read'
  · rename_i read'
    cases read.symm.trans read'
    cases m.execute h i <;> rfl

/-- The rows of a program do not depend on the files it begins with. -/
lemma rows_from {m m' : LineMachine} (same : m.registers = m'.registers) :
    (LineRun.from h l stop data position m).rows =
      (LineRun.from h l stop data position m').rows := by
  fun_induction LineRun.from h l stop data position m generalizing m' with
  | case1 position m before fault next read => rw [rows_of_failed before read]
  | case2 position m before i next read fault failed =>
    have step := LineMachine.execute_registers (h := h) same i
    rw [rows_of_done before read]
    cases executed : m'.execute h i with
    | error own =>
      rw [failed, executed] at step
      cases step
      rfl
    | ok s =>
      rw [failed, executed] at step
      cases step
  | case3 position m before i next read after row done =>
    rename_i ih
    have step := LineMachine.execute_registers (h := h) same i
    rw [rows_of_done before read]
    cases executed : m'.execute h i with
    | error own =>
      rw [done, executed] at step
      cases step
    | ok s =>
      obtain ⟨after', row'⟩ := s
      rw [done, executed] at step
      obtain ⟨registers, rfl⟩ := Prod.mk.inj (Except.ok.inj step)
      exact congrArg (Except.map (row.toList ++ ·)) (ih registers)
  | case4 position m past => rw [LineRun.from.eq_def, if_neg past]

end LineRun
end WasmSourceMap.Dwarf
