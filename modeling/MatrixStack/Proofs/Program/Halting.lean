/-
Programs that always halt.

A loaded machine starts in the upper left corner, to the right.  If its program has neither arrows
nor comparators, it carries out no instruction twice in the same direction, and so at most four
instructions for each cell of its grid (`Machine.length_carriedOut_le`).  A run that is allowed more
steps than that has ended before they are used up (`Machine.ended_run`): it has stopped, or it waits
for a number and there is none left.
-/
import Mathlib.Data.List.Perm.Subperm
import Mathlib.Data.List.ProdSigma
import MatrixStack.Proofs.Machine.Trail
import MatrixStack.Proofs.Program.IdealCursor
import MatrixStack.Proofs.Program.Resumption

namespace MatrixStack

/-! ## The number of poses -/

theorem Direction.mem_all (d : Direction) : d ∈ Direction.all := by
  cases d <;> decide

namespace Extent

theorem length_pointers (e : Extent) : e.pointers.length = e.height.toNat * e.width.toNat := by
  simp [pointers]

/-- Every pointer inside, with every direction. -/
def poses (e : Extent) : List Pose := e.pointers ×ˢ Direction.all

theorem mem_poses_iff {e : Extent} {q : Pose} : q ∈ e.poses ↔ e.contains q.1 = true := by
  rw [poses, List.mem_product, mem_pointers_iff]
  exact and_iff_left q.2.mem_all

theorem length_poses (e : Extent) :
    e.poses.length = 4 * e.width.toNat * e.height.toNat := by
  have hfour : Direction.all.length = 4 := rfl
  rw [poses, List.length_product, length_pointers, hfour, Nat.mul_comm e.height.toNat,
    Nat.mul_comm _ 4, Nat.mul_assoc]

end Extent

namespace Machine

variable {m : Machine} {pending : List Number} {n : Nat}

theorem length_carriedOut_le (hgrid : OnlyMirrors m.grid)
    (hw : m.grid.extent.width < Pointer.modulus) (hh : m.grid.extent.height < Pointer.modulus)
    (hstart : m.pose = (.origin, .right)) (cs : List Call) :
    (m.carriedOut cs).length ≤ 4 * m.grid.extent.width.toNat * m.grid.extent.height.toNat := by
  have hsub : (m.carriedOut cs).map Execution.pose ⊆ m.grid.extent.poses := by
    intro q hq
    obtain ⟨e, he, rfl⟩ := List.mem_map.mp hq
    exact Extent.mem_poses_iff.mpr (onInstruction_of_mem_history (List.mem_filter.mp he).1).contains
  have hle := (List.Nodup.subperm (nodup_poses hgrid hw hh hstart cs) hsub).length_le
  rwa [List.length_map, Extent.length_poses] at hle

/-! ## Faults -/

theorem filter_nextExecution {printed : Option Number} (h : m.step.1 = .ok printed) :
    m.nextExecution.filter Execution.succeeds = m.nextExecution := by
  refine List.filter_eq_self.mpr fun e he => ?_
  have hmachine : e.machine = m := by
    unfold nextExecution at he
    split at he
    · exact absurd he List.not_mem_nil
    · rw [List.mem_singleton.mp he]
  rw [Execution.succeeds, hmachine, h]
  rfl

/-- Where no call is answered with a fault, everything that is executed is carried out. -/
theorem carriedOut_of_answers {cs : List Call}
    (h : ∀ a ∈ m.answers cs, ∃ printed, a = .ok printed) : m.carriedOut cs = m.history cs := by
  induction cs generalizing m with
  | nil => rfl
  | cons c cs ih =>
    obtain ⟨⟨printed, hfirst⟩, hrest⟩ := List.forall_mem_cons.mp h
    cases c with
    | step =>
      have hlater : m.step.2.carriedOut cs = m.step.2.history cs := ih hrest
      rw [carriedOut_step_cons, filter_nextExecution hfirst, hlater, history]
    | input v => exact ih hrest

theorem carriedOut_run (h : (m.run pending n).fault = none) :
    m.carriedOut (m.runCalls pending n) = m.history (m.runCalls pending n) := by
  induction m, pending, n using runInduction with
  | rests m pending n hrests =>
    rw [runCalls_of_rests hrests, carriedOut, history_answerCalls]
    rfl
  | faulted m pending n fault after hs hstep =>
    rw [run_succ_of_error hs hstep] at h
    cases h
  | stepped m pending n printed after hs hstep ih =>
    rw [run_succ_of_ok hs hstep] at h
    have hlater := ih h
    unfold carriedOut at hlater
    rw [runCalls_succ_of_ok hs hstep, carriedOut, history_answerCalls_step, List.filter_append,
      filter_nextExecution (congrArg Prod.fst hstep), hstep, hlater]

/-! ## Runs -/

/-- A run of more steps than instructions are ever carried out has ended by itself. -/
theorem ended_run {bound : Nat} (h : ∀ cs, (m.carriedOut cs).length ≤ bound) (hn : bound < n) :
    ended (m.run pending n) = true := by
  by_contra hgoes
  have hopen := Bool.eq_false_iff.mpr hgoes
  rw [ended, Bool.or_eq_false_iff] at hopen
  have hfault : (m.run pending n).fault = none := Option.isNone_iff_eq_none.mp (by simp_all)
  have hs : (m.run pending n).machine.state = .running := by simpa using hopen.2
  have hlength := length_history_run_of_running hfault hs
  have hle := h (m.runCalls pending n)
  rw [carriedOut_run hfault, hlength] at hle
  omega

/-- The run without a cap: its end does not depend on the steps that are allowed beyond a bound. -/
theorem exists_runToEnd? {bound : Nat} (h : ∀ cs, (m.carriedOut cs).length ≤ bound)
    (pending : List Number) :
    ∃ r, (∀ n, bound < n → m.runToEnd? n pending = some r) ∧
      (r.fault = none →
        r.machine.state = .stopped ∨ r.machine.state = .inputWaiting ∧ r.rest = []) := by
  have hended : ended (m.run pending (bound + 1)) = true := ended_run h (Nat.lt_succ_self bound)
  refine ⟨m.run pending (bound + 1), fun n hn => ?_, fun hfault => ?_⟩
  · obtain ⟨d, rfl⟩ := Nat.exists_eq_add_of_le hn
    show (if ended (m.run pending (bound + 1 + d)) = true then _ else _) = _
    rw [run_add_of_ended hended, if_pos hended]
  · rw [ended, hfault] at hended
    cases hs : (m.run pending (bound + 1)).machine.state with
    | running => exact absurd hs (of_decide_eq_true hended)
    | stopped => exact .inl rfl
    | inputWaiting => exact .inr ⟨rfl, rest_run_of_waiting hs⟩

end Machine

namespace Program

variable {conv : Converters} {type : NumberType} {m : Machine}

theorem Loaded.pose (h : Loaded conv type m) : m.pose = (.origin, .right) := by
  obtain ⟨_, _, _, -, -, hlaid⟩ := h.laidOut
  rw [hlaid.fresh]
  rfl

/-- A program without arrows and comparators carries out no instruction twice at the same pointer in
the same direction, whatever calls its machine receives, and a run of it without a cap ends, from
wherever the calls have led to.  It ends with the machine stopped or waiting for a number when none
is left, unless a number of another type is refused by an operator; numbers of the type of the
program never are. -/
theorem mirrors_always_halt (conv : Converters) (type : NumberType) (m : Machine)
    (hm : Loaded conv type m) (hw : m.grid.extent.width < Pointer.modulus)
    (hh : m.grid.extent.height < Pointer.modulus)
    (hgrid : ∀ p i, m.grid.get? p = some (.instruction i) →
      i.char ∉ ['>', '<', 'v', '^', 'z', 'c']) :
    let bound := 4 * m.grid.extent.width.toNat * m.grid.extent.height.toNat
    (∀ cs, ((m.carriedOut cs).map fun e => (e.machine.pointer, e.machine.direction)).Nodup ∧
      (m.carriedOut cs).length ≤ bound) ∧
    (∀ cs pending, ∃ r, (∀ n, bound < n → (m.after cs).runToEnd? n pending = some r) ∧
      (r.fault = none →
        r.machine.state = .stopped ∨ r.machine.state = .inputWaiting ∧ r.rest = [])) ∧
    (conv = .ofType type → ∀ cs, (∀ c ∈ cs, c.Belongs type) →
      m.carriedOut cs = m.history cs ∧
      ∀ pending, (∀ v ∈ pending, v.Belongs type) → ∀ n,
        ((m.after cs).run pending n).fault = none) := by
  intro bound
  have hlength : ∀ cs, (m.carriedOut cs).length ≤ bound :=
    Machine.length_carriedOut_le hgrid hw hh hm.pose
  refine ⟨fun cs => ⟨Machine.nodup_poses hgrid hw hh hm.pose cs, hlength cs⟩, ?_, ?_⟩
  · intro cs pending
    refine Machine.exists_runToEnd? (fun ds => ?_) pending
    have hboth := hlength (cs ++ ds)
    rw [Machine.carriedOut_append, List.length_append] at hboth
    exact Nat.le_trans (Nat.le_add_left _ _) hboth
  · rintro rfl cs hcs
    have hafter := Machine.after_wellFormed hm.wellFormed hcs
    refine ⟨Machine.carriedOut_of_answers (Machine.answers_of_wellFormed hm.wellFormed hcs), ?_⟩
    exact fun pending hpending n => (Machine.run_wellFormed hafter hpending n).1

theorem mirrors_always_halt_through_cells_twice :
    let byte := NumberType.unsigned .bits8
    let seven : Number := ⟨byte, 7⟩
    let calls := [Call.step, .input seven, .step, .step, .step, .step, .input seven, .step]
    ∃ m, load (.ofType byte) byte "i o" = .ok m ∧
      m.grid.extent.width < Pointer.modulus ∧ m.grid.extent.height < Pointer.modulus ∧
      (∀ p i, m.grid.get? p = some (.instruction i) →
        i.char ∉ ['>', '<', 'v', '^', 'z', 'c']) ∧
      (∀ c ∈ calls, c.Belongs byte) ∧ (m.history calls).length = 5 ∧
      ((m.history calls).map fun e => (e.machine.pointer, e.machine.direction)).Nodup ∧
      ∃ r, m.runToEnd? 13 [seven] = some r ∧
        (r.fault = none →
          r.machine.state = .stopped ∨ r.machine.state = .inputWaiting ∧ r.rest = []) := by
  intro byte seven calls
  have hload : (load (.ofType byte) byte "i o").isOk = true := by decide
  obtain ⟨m, hm⟩ := Outcome.exists_of_isOk hload
  have hcheck : ∀ m ∈ (load (.ofType byte) byte "i o").toOption,
      m.grid.extent = ⟨3, 1⟩ ∧ (m.history calls).length = 5 ∧
      ∀ p ∈ m.grid.extent.pointers, ∀ cell ∈ m.grid.get? p,
        cell ∉ Cell.ofChars ['>', '<', 'v', '^', 'z', 'c'] := by decide
  rw [hm] at hcheck
  obtain ⟨hextent, hlength, hcells⟩ := hcheck m rfl
  have hw : m.grid.extent.width < Pointer.modulus := by
    rw [hextent]
    decide
  have hh : m.grid.extent.height < Pointer.modulus := by
    rw [hextent]
    decide
  have hgrid := not_mem_chars_of_cells hcells
  have hcalls : ∀ c ∈ calls, c.Belongs byte := by decide
  obtain ⟨htrail, hruns, htyped⟩ := mirrors_always_halt _ byte m (.grown _ hm) hw hh hgrid
  have hnodup := (htrail calls).1
  rw [(htyped rfl calls hcalls).1] at hnodup
  obtain ⟨r, hr, hend⟩ := hruns [] [seven]
  rw [hextent] at hr
  exact ⟨m, hm, hw, hh, hgrid, hcalls, hlength, hnodup, r, hr 13 (by decide), hend⟩

end Program
end MatrixStack
